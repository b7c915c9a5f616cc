import Proofstorm.Custody.Invariant

/-!
What every call of the vault keeps to, whatever steps the others make between its
own: the statements it issues are those of its method (`Issues`), each that commits
has its effect, and the row it works on has the identity that the method asks for
(`Authorized`). With the rule of rely and guarantee this holds of every run
(`Reached.kept`).
-/
namespace Proofstorm.Custody
open Proofstorm.Interleaving (Throughout OnSuccess)
open Proofstorm.Interleaving.Call (Meets)
open Relation (ReflTransGen)
open Vault (Side)

/-- The side, the identity and the transfer of a method that asks for an identity. -/
def Method.caller : Method → Option (Side × Grant × String)
  | .handoff source _ id => some (.source,source,id)
  | .status grant id | .observe grant id _ => some (.either,grant,id)
  | .beginCapture grant id _ | .capture grant id .. | .release grant id => some (.source,grant,id)
  | .deliver grant id | .beginReceive grant id _ | .consume grant id .. => some (.destination,grant,id)
  | .prepare .. | .finishSource .. | .finishReceive .. | .interrupt _ | .expire | .close => none

/-- The transfer that a statement changes. -/
def Statement.subject : Statement → Option String
  | .handoff _ _ id | .erase id _ _ => some id
  | .beginCapture _ t _ | .save t | .stage _ _ t _ | .deliver _ _ t | .beginReceive _ _ t _ | .consume _ _ t => some t.id
  | .setClock _ | .prepare .. | .close => none

/-- The row that a method works on has the identity that it asks for. -/
def Authorized (method : Method) (db : Db) : Prop :=
  ∀ side grant id, method.caller = some (side,grant,id) → ∃ row ∈ db.transfers, row.handle = id ∧ side.allows grant row

/-- The statements of a method. -/
def Issues (limits : Limits) : Method → Statement → Prop
  | .prepare source destination _ maximumBytes random,statement =>
    ∃ key, statement = .prepare limits source destination key maximumBytes random
  | .handoff source destination id,statement => statement = .handoff source destination id
  | .beginCapture grant id operation,statement => ∃ t, statement = .beginCapture grant t operation ∧ t.id = id
  | .capture grant id _ reader _,statement =>
    (∃ t, statement = .save t ∧ t.id = id ∧ t.capture.retired = false) ∨
      ∃ index t, statement = .stage grant index t reader ∧ t.id = id
  | .deliver grant id,statement => ∃ index t, statement = .deliver grant index t ∧ t.id = id
  | .beginReceive grant id operation,statement => ∃ index t, statement = .beginReceive grant index t operation ∧ t.id = id
  | .consume grant id _ _,statement =>
    (∃ index t, statement = .consume grant index t ∧ t.id = id) ∨
      ∃ t, statement = .save t ∧ t.id = id ∧ (t.receiver.interrupted = true ∨ t.receiver.receipt.isSome)
  | .finishSource id _ _,statement | .finishReceive id _ _,statement | .observe _ id _,statement | .interrupt id,statement =>
    ∃ t, statement = .save t ∧ t.id = id
  | .release grant id,statement => statement = .erase id .released (some grant)
  | .expire,statement => (∃ t, statement = .save t) ∨ ∃ id, statement = .erase id .expired none
  | .close,statement => statement = .close ∨ (∃ t, statement = .save t) ∨ ∃ id, statement = .erase id .released none
  | .status _ _,_ => False

section
variable [Sha256]

/-- What is asked of a statement of a method where it is executed. -/
def Needs (limits : Limits) (method : Method) (statement : Statement) (db : Db) : Prop :=
  Issues limits method statement ∧
    ∀ answer after, execute statement db = .ok (answer,after) → Effect statement db after ∧ Authorized method db

variable {db now after : Db} {vault : Vault} {grant : Grant} {id operation : String} {old : TransferRow} {limits : Limits}
  {method : Method}

/-- The row as a call has read it, and what has become of it. -/
structure Known (old : TransferRow) (db : Db) : Prop where
  sound : Sound db
  named : old.metadata.id = old.handle
  row : ∃ row ∈ db.transfers, Later old row

theorem Known.read (sound : Sound db) (member : old ∈ db.transfers) : Known old db :=
  ⟨sound,(sound.rows old member).named,old,member,.refl old⟩

theorem Known.later (known : Known old db) (steps : ReflTransGen Follows db now) : Known old now := by
  have follows := Follows.of_steps steps
  obtain ⟨row,member,later⟩ := known.row
  obtain ⟨next,there,more⟩ := follows.later row member
  exact ⟨follows.sound known.sound,known.named,next,there,later.trans more⟩

theorem Known.seen (known : Known old db) : ∃ row ∈ db.transfers, Later old row ∧ Seen old.id old.metadata row := by
  obtain ⟨row,member,later⟩ := known.row
  exact ⟨row,member,later,later.handle.trans known.named.symm,later.id,later.age,fun equal => (later.same equal).1⟩

theorem Known.save {t : Transfer} (known : Known old db) (edit : Edit old.metadata t)
    (revision : t.revision = old.metadata.revision) {answer : Transfer} (executed : Custody.save t db = .ok (answer,after)) :
    Effect (.save t) db after ∧ ∃ row ∈ db.transfers, Later old row ∧
      (old.metadata.revision = row.metadata.revision → row.destination = old.destination) ∧
      Known { row with metadata := { t with revision := t.revision + 1 } } after ∧
        answer = { t with revision := t.revision + 1 } ∧ row.metadata.revision = old.metadata.revision := by
  obtain ⟨row,member,later,seen⟩ := known.seen
  have same : t.id = old.metadata.id := edit.edited.id
  have named : row.handle = t.id := seen.named.trans same.symm
  have effect : Effect (.save t) db after := by
    refine save_effect member named (fun equal => ?_) executed
    rw [seen.same (equal.trans revision)]
    exact edit
  obtain ⟨rfl,other,there,alike,equal,rfl⟩ := save_ok executed
  obtain rfl := row_unique there member (alike.trans named.symm)
  refine ⟨effect,other,member,later,fun equal => (later.same equal.symm).2,?_,rfl,equal.trans revision⟩
  exact .read ((effect.follows known.sound).sound known.sound) (replaced_mem _ member rfl)

/-! ### The parts of the methods -/

/-- The part of a call keeps to what is asked of its method, and its value is as `post` says. -/
abbrev Obeys {α : Type} (limits : Limits) (method : Method) (call : Program α) (post : α → Db → Prop) (db : Db) : Prop :=
  call.run.Meets execute Follows (Needs limits method) (OnSuccess post) db

section
variable {α : Type} {post : α → Db → Prop} {side : Side}

variable {k : Nat × Transfer → Program α} {statement : Statement}

theorem obeys_authorized (sound : Sound db)
    (then_ : ∀ old now, Known old now → old.handle = id → side.allows grant old →
      Obeys limits method (k (old.id,old.metadata)) post now) :
    Obeys limits method (vault.authorized grant id side >>= k) post db := by
  rw [Vault.authorized,bind_assoc]
  refine .afterSettle (fun _ _ => trivial) fun _ _ => .afterQuery (fun _ _ => trivial) fun seen value steps found => ?_
  simp only [bind_ok,ensure_ok,pure_ok] at found
  obtain ⟨row,read,_,allowed,rfl⟩ := found
  obtain ⟨member,named⟩ := rowOf_ok.mp read
  exact then_ row seen (.read ((Follows.of_steps steps).sound sound) member) named allowed

theorem obeys_readRow (sound : Sound db)
    (then_ : ∀ old now, ReflTransGen Follows db now → old ∈ now.transfers → Known old now → old.handle = id →
      Obeys limits method (k (old.id,old.metadata)) post now) :
    Obeys limits method (Vault.readRow id >>= k) post db := by
  refine .afterQuery (fun _ _ => trivial) fun seen value steps found => ?_
  simp only [bind_ok,pure_ok] at found
  obtain ⟨row,read,rfl⟩ := found
  obtain ⟨member,named⟩ := rowOf_ok.mp read
  exact then_ row seen steps member (.read ((Follows.of_steps steps).sound sound) member) named

/-- A guard that reads the time of day. -/
theorem obeys_guard {f : Db → Except Error Unit} {k : Unit → Program α} (known : Known old db)
    (then_ : ∀ now, Known old now → Obeys limits method (k ()) post now) :
    Obeys limits method (Interleaving.query f >>= k) post db :=
  .afterQuery (fun _ _ => trivial) fun seen _ steps _ => then_ seen (known.later steps)

theorem obeys_ensure {condition : Prop} [Decidable condition] {error : Error} {k : Unit → Program α}
    (then_ : condition → Obeys limits method (k ()) post db) :
    Obeys limits method (Interleaving.settle (ensure condition error) >>= k) post db :=
  .afterSettle (fun _ _ => trivial) fun _ passed => then_ (ensure_ok.mp passed)

theorem obeys_pure {value : α} (holds : ∀ now, ReflTransGen Follows db now → post value now) :
    Obeys limits method (pure value) post db :=
  fun now steps => holds now steps

theorem obeys_exec {post : statement.Answer → Db → Prop} (issues : Issues limits method statement)
    (commits : ∀ now answer after, ReflTransGen Follows db now → execute statement now = .ok (answer,after) →
      Effect statement now after ∧ Authorized method now ∧ ∀ last, ReflTransGen Follows after last → post answer last) :
    Obeys limits method (exec statement) post db :=
  Meets.submit (fun now steps => ⟨issues,fun answer after executed =>
      ⟨(commits now answer after steps executed).1,(commits now answer after steps executed).2.1⟩⟩)
    (fun now answer after last steps executed more => (commits now answer after steps executed).2.2 last more)
    fun _ _ => trivial

theorem obeys_exec_bind {k : statement.Answer → Program α} (issues : Issues limits method statement)
    (commits : ∀ now answer after, ReflTransGen Follows db now → execute statement now = .ok (answer,after) →
      Effect statement now after ∧ Authorized method now ∧ Obeys limits method (k answer) post after) :
    Obeys limits method (exec statement >>= k) post db :=
  .afterSubmit (fun _ _ => trivial) (fun now steps => ⟨issues,fun answer after executed =>
      ⟨(commits now answer after steps executed).1,(commits now answer after steps executed).2.1⟩⟩)
    fun now answer after steps executed => (commits now answer after steps executed).2.2
end

/-! ### Authority at the commit -/

omit [Sha256] in
theorem authorized_none (caller : method.caller = none) : Authorized method db := by
  intro side grant id asked
  rw [caller] at asked
  cases asked

theorem authorized_source (known : Known old db) (handle : old.handle = id) (caller : method.caller = some (.source,grant,id))
    (owner : Side.source.allows grant old) : Authorized method db := by
  intro side g i asked
  cases caller.symm.trans asked
  obtain ⟨row,member,later⟩ := known.row
  exact ⟨row,member,later.handle.trans handle,later.source.trans owner⟩

/-- The destination is the one that the call has read where it can no longer change. -/
theorem authorized_fixed (known : Known old db) (handle : old.handle = id)
    (caller : method.caller = some (.destination,grant,id)) (owner : Side.destination.allows grant old)
    (fixed : old.metadata.delivered = true ∨ old.metadata.receiver.operationId.isSome) : Authorized method db := by
  intro side g i asked
  cases caller.symm.trans asked
  obtain ⟨row,member,later⟩ := known.row
  exact ⟨row,member,later.handle.trans handle,(later.fixed (.inr fixed)).trans owner⟩

/-- The row is as the call has read it where the revision is. -/
theorem authorized_same (known : Known old db) (handle : old.handle = id) {side : Side}
    (caller : method.caller = some (side,grant,id)) (owner : side.allows grant old)
    (same : ∃ row ∈ db.transfers, row.handle = old.metadata.id ∧ row.metadata.revision = old.metadata.revision) :
    Authorized method db := by
  intro s g i asked
  cases caller.symm.trans asked
  obtain ⟨row,member,later,seen⟩ := known.seen
  obtain ⟨other,there,named,revision⟩ := same
  obtain rfl := row_unique there member (named.trans seen.named.symm)
  have destination := (later.same revision).2
  refine ⟨other,member,later.handle.trans handle,?_⟩
  cases side with
  | destination => exact destination.trans owner
  | source => exact later.source.trans owner
  | either => exact owner.imp (fun owner => later.source.trans owner) fun owner => destination.trans owner

/-! ### The methods -/

theorem handoff_obeys {source destination : Grant} (sound : Sound db) :
    Obeys limits (.handoff source destination id) (vault.handoff source destination id) (fun _ _ => True) db := by
  refine .afterSettle (fun _ _ => trivial) fun _ _ => .afterSettle (fun _ _ => trivial) fun _ _ => obeys_ensure fun _ => ?_
  refine obeys_exec rfl fun now answer after steps executed => ?_
  have here := (Follows.of_steps steps).sound sound
  obtain ⟨effect,row,member,named,owner⟩ := handoffTx_effect (fun row member => (here.rows row member).named) executed
  refine ⟨effect,fun side g i asked => ?_,fun _ _ => trivial⟩
  cases asked
  exact ⟨row,member,named,owner⟩

theorem prepare_obeys {source destination : Grant} {requestKey : String} {maximumBytes : Nat} {random : List UInt8}
    (same : vault.limits = limits) :
    Obeys limits (.prepare source destination requestKey maximumBytes random)
      (vault.prepare source destination requestKey maximumBytes random) (fun _ _ => True) db := by
  refine .afterSettle (fun _ _ => trivial) fun _ _ => .afterSettle (fun _ _ => trivial) fun _ _ => obeys_ensure fun valid => ?_
  simp only [not_or] at valid
  obtain ⟨_,positive,_,apart⟩ := valid
  refine obeys_exec ⟨_,by rw [same]⟩ fun now answer after steps executed => ?_
  exact ⟨prepareTx_effect (Nat.pos_of_ne_zero positive) apart executed,authorized_none rfl,fun _ _ => trivial⟩

theorem status_obeys (sound : Sound db) : Obeys limits (.status grant id) (vault.status grant id) (fun _ _ => True) db :=
  obeys_authorized sound fun _ _ _ _ _ => obeys_pure fun _ _ => trivial

theorem beginCapture_obeys (sound : Sound db) :
    Obeys limits (.beginCapture grant id operation) (vault.beginCapture grant id operation) (fun _ _ => True) db := by
  refine obeys_authorized sound fun old seen known handle owner => obeys_guard known fun now known => ?_
  refine obeys_ensure fun _ => obeys_ensure fun reserved => ?_
  refine obeys_exec ⟨_,rfl,known.named.trans handle⟩ fun last answer after steps executed => ?_
  have known := known.later steps
  obtain ⟨row,member,_,seen⟩ := known.seen
  exact ⟨beginCaptureTx_effect seen member reserved executed,authorized_source known handle rfl owner,fun _ _ => trivial⟩

theorem finishSource_obeys {receipt : NativeReceipt} (sound : Sound db) :
    Obeys limits (.finishSource id operation receipt) (Vault.finishSource id operation receipt) (fun _ _ => True) db := by
  refine obeys_readRow sound fun old seen _ _ known handle => obeys_ensure fun _ => ?_
  cases open_ : old.metadata.source.receipt with
  | some previous =>
    simp only
    exact obeys_ensure fun _ => obeys_pure fun _ _ => trivial
  | none =>
    simp only
    refine obeys_exec ⟨_,rfl,known.named.trans handle⟩ fun last answer after steps executed => ?_
    obtain ⟨effect,_⟩ := (known.later steps).save (.finishSource receipt open_) rfl executed
    exact ⟨effect,authorized_none rfl,fun _ _ => trivial⟩

theorem finishReceive_obeys {receipt : NativeReceipt} (sound : Sound db) :
    Obeys limits (.finishReceive id operation receipt) (Vault.finishReceive id operation receipt) (fun _ _ => True) db := by
  refine obeys_readRow sound fun old seen _ _ known handle => obeys_ensure fun _ => ?_
  cases open_ : old.metadata.receiver.receipt with
  | some previous =>
    simp only
    exact obeys_ensure fun _ => obeys_pure fun _ _ => trivial
  | none =>
    simp only
    refine obeys_exec ⟨_,rfl,known.named.trans handle⟩ fun last answer after steps executed => ?_
    obtain ⟨effect,_⟩ := (known.later steps).save (.finishReceive receipt open_) rfl executed
    exact ⟨effect,authorized_none rfl,fun _ _ => trivial⟩

theorem observe_obeys (sound : Sound db) :
    Obeys limits (.observe grant id operation) (vault.observe grant id operation) (fun _ _ => True) db := by
  refine obeys_authorized sound fun old seen known handle owner => obeys_ensure fun _ => ?_
  split
  · exact obeys_pure fun _ _ => trivial
  · refine obeys_ensure fun _ => obeys_exec ⟨_,rfl,known.named.trans handle⟩ fun last answer after steps executed => ?_
    have known := known.later steps
    obtain ⟨effect,_⟩ := known.save (.observe operation) rfl executed
    obtain ⟨_,row,member,named,revision,_⟩ := save_ok executed
    exact ⟨effect,authorized_same known handle rfl owner ⟨row,member,named,revision⟩,fun _ _ => trivial⟩

/-- A delivery is a retry, or goes by the row as it was read. -/
theorem deliverTx_current {t answer : Transfer} {index : Nat} (executed : deliverTx grant index t db = .ok (answer,after)) :
    t.delivered = true ∨ ∃ row ∈ db.transfers, row.handle = t.id ∧ row.metadata.revision = t.revision := by
  by_cases delivered : t.delivered = true
  · exact .inl delivered
  · simp only [deliverTx,if_neg delivered,bind_ok] at executed
    obtain ⟨_,_,_,_,_,_,_,_,_,_,_,_,_,_,saved⟩ := executed
    obtain ⟨_,row,member,named,revision,_⟩ := save_ok saved
    exact .inr ⟨row,member,named,revision⟩

theorem deliver_obeys (sound : Sound db) :
    Obeys limits (.deliver grant id) (vault.deliver grant id) (fun _ _ => True) db := by
  refine obeys_authorized sound fun old seen known handle owner => obeys_guard known fun now known => ?_
  refine obeys_ensure fun ready => obeys_exec ⟨_,_,rfl,known.named.trans handle⟩ fun last answer after steps executed => ?_
  have known := known.later steps
  obtain ⟨row,member,_,seen⟩ := known.seen
  refine ⟨deliverTx_effect seen member ready executed,?_,fun _ _ => trivial⟩
  rcases deliverTx_current executed with delivered | same
  · exact authorized_fixed known handle rfl owner (.inl delivered)
  · exact authorized_same known handle rfl owner same

theorem beginReceive_obeys (sound : Sound db) :
    Obeys limits (.beginReceive grant id operation) (vault.beginReceive grant id operation) (fun _ _ => True) db := by
  refine obeys_authorized sound fun old seen known handle owner => obeys_guard known fun now known => ?_
  refine obeys_ensure fun _ => obeys_ensure fun fence => ?_
  have delivered : old.metadata.delivered = true := by
    by_contra undelivered
    exact fence (.inl (by simpa using undelivered))
  refine obeys_exec ⟨_,_,rfl,known.named.trans handle⟩ fun last answer after steps executed => ?_
  have known := known.later steps
  obtain ⟨row,member,_,seen⟩ := known.seen
  exact ⟨beginReceiveTx_effect seen member delivered executed,authorized_fixed known handle rfl owner (.inl delivered),
    fun _ _ => trivial⟩

theorem release_obeys (sound : Sound db) :
    Obeys limits (.release grant id) (vault.release grant id) (fun _ _ => True) db := by
  refine obeys_authorized sound fun old seen known handle owner => obeys_ensure fun _ => ?_
  refine obeys_exec rfl fun last answer after steps executed => ?_
  have known := known.later steps
  obtain ⟨effect,_⟩ := eraseTx_effect (fun row member => (known.sound.rows row member).named) rfl executed
  exact ⟨effect,authorized_source known handle rfl owner,fun _ _ => trivial⟩

omit [Sha256] in
theorem interrupt_edit (t : Transfer) : Edit t { t with
    source := if t.source.operationId.isSome ∧ t.source.receipt = none then { t.source with interrupted := true } else t.source
    capture := if t.capture = .started then .unknown else t.capture
    receiver := if t.receiver.operationId.isSome ∧ t.receiver.receipt = none then
      { t.receiver with interrupted := true } else t.receiver } := by
  have marked : ∀ stage : NativeStage, (if stage.operationId.isSome ∧ stage.receipt = none then
      { stage with interrupted := true } else stage) = { stage with
        interrupted := stage.interrupted || decide (stage.operationId.isSome ∧ stage.receipt = none) } := by
    intro stage
    by_cases unresolved : stage.operationId.isSome ∧ stage.receipt = none
    · simp [unresolved]
    · rw [if_neg unresolved,decide_eq_false unresolved,Bool.or_false]
  rw [marked,marked]
  exact .interrupt _ _

/-- The receive was interrupted or has its receipt, where it has begun at all. -/
def Settled (base : TransferRow) (t : Transfer) : Prop :=
  base.metadata.receiver.operationId.isSome → t.receiver.interrupted = true ∨ t.receiver.receipt.isSome

theorem interrupt_obeys (sound : Sound db)
    (issues : ∀ t : Transfer, t.id = id → (∀ base, Known base db → base.handle = id → Settled base t) →
      Issues limits method (.save t))
    (authority : ∀ now, ReflTransGen Follows db now → Authorized method now) :
    Obeys limits method (Vault.interrupt id) (fun _ _ => True) db := by
  refine obeys_readRow sound fun old seen before here known handle => ?_
  refine obeys_exec (issues _ (known.named.trans handle) fun base first same accepted => ?_)
    fun last answer after steps executed => ?_
  · obtain ⟨operation,accepted⟩ := Option.isSome_iff_exists.mp accepted
    obtain ⟨middle,held,forth⟩ := (first.later before).row
    obtain rfl := row_unique here held (handle.trans (forth.handle.trans same).symm)
    have accepted := forth.receiverOperation operation accepted
    by_cases ended : old.metadata.receiver.receipt = none
    · exact .inl (by simp [accepted,ended])
    · exact .inr (by simp [ended,Option.isSome_iff_ne_none])
  · obtain ⟨effect,_⟩ := (known.later steps).save (interrupt_edit old.metadata) rfl executed
    exact ⟨effect,authority last (before.trans steps),fun _ _ => trivial⟩

/-- A save of the capture. -/
theorem captureSave {reader : Reader} {produced : ProducedPayload} {t answer : Transfer} (known : Known old db)
    (handle : old.handle = id) (owner : Side.source.allows grant old) (edit : Edit old.metadata t)
    (revision : t.revision = old.metadata.revision) (executed : execute (.save t) db = .ok (answer,after)) :
    Effect (.save t) db after ∧ Authorized (.capture grant id operation reader produced) db ∧
      ∃ next, Known next after ∧ next.metadata = answer ∧ answer = { t with revision := t.revision + 1 } ∧
        next.handle = id ∧ Side.source.allows grant next := by
  obtain ⟨effect,row,member,later,_,next,same,_⟩ := known.save edit revision executed
  refine ⟨effect,authorized_source known handle rfl owner,_,next,same.symm,same,later.handle.trans handle,?_⟩
  exact later.source.trans owner

section
variable {reader : Reader} {produced : ProducedPayload}

theorem failCapture_obeys (known : Known old db) (handle : old.handle = id) (owner : Side.source.allows grant old)
    (started : old.metadata.capture = .started) :
    Obeys limits (.capture grant id operation reader produced) (Vault.failCapture old.metadata) (fun _ _ => True) db := by
  refine obeys_exec_bind (.inl ⟨_,rfl,known.named.trans handle,rfl⟩) fun now answer after steps executed => ?_
  obtain ⟨effect,authorized,_⟩ := captureSave (known.later steps) handle owner (.captureFails started) rfl executed
  exact ⟨effect,authorized,fun _ _ => trivial⟩

theorem captureStaged_obeys {index : Nat} (known : Known old db) (handle : old.handle = id)
    (owner : Side.source.allows grant old) :
    Obeys limits (.capture grant id operation reader produced) (Vault.captureStaged grant index old.metadata reader)
      (fun _ _ => True) db := by
  refine obeys_exec_bind (.inr ⟨index,old.metadata,rfl,known.named.trans handle⟩) fun now answer after steps executed => ?_
  have known := known.later steps
  have effect := stageTx_effect (fun row member => (known.sound.rows row member).named) executed
  have known_ := known.later (.single (effect.follows known.sound))
  refine ⟨effect,authorized_source known handle rfl owner,?_⟩
  cases answer with
  | ready t => exact obeys_pure fun _ _ => trivial
  | aborted =>
    refine obeys_readRow known_.sound fun row seen steps member here same => ?_
    have own : Side.source.allows grant row := by
      obtain ⟨other,there,later⟩ := (known_.later steps).row
      obtain rfl := row_unique there member (later.handle.trans (known.named.symm.trans same.symm))
      exact later.source.trans owner
    have named : row.handle = id := same.trans (known.named.trans handle)
    dsimp only
    split
    · rename_i started
      refine obeys_exec_bind (.inl ⟨_,rfl,here.named.trans named,rfl⟩) fun now answer after steps executed => ?_
      obtain ⟨effect,authorized,_⟩ := captureSave (here.later steps) named own (.captureFails started) rfl executed
      exact ⟨effect,authorized,fun _ _ => trivial⟩
    · exact fun _ _ => trivial

theorem capture_obeys (sound : Sound db) : Obeys limits (.capture grant id operation reader produced)
    (vault.capture grant id operation reader produced) (fun _ _ => True) db := by
  refine obeys_authorized sound fun old seen known handle owner => obeys_guard known fun now known => ?_
  refine obeys_ensure fun phase => obeys_ensure fun agrees => ?_
  simp only [not_or,not_not] at phase
  obtain ⟨started,_⟩ := phase
  refine obeys_exec_bind ?_ fun now t after steps executed => ?_
  · exact .inl ⟨_,rfl,known.named.trans handle,by rw [started]; rfl⟩
  obtain ⟨effect,authorized,row,known,rfl,saved,handle,owner⟩ :=
    captureSave (known.later steps) handle owner (.captureReceipt produced.native started agrees) rfl executed
  refine ⟨effect,authorized,?_⟩
  have started : row.metadata.capture = .started := by
    rw [saved]
    exact started
  split
  · exact failCapture_obeys known handle owner started
  · split
    · exact failCapture_obeys known handle owner started
    · refine obeys_ensure fun agrees => ?_
      refine obeys_exec_bind (.inl ⟨_,rfl,known.named.trans handle,by rw [started]; rfl⟩)
        fun now t after steps executed => ?_
      obtain ⟨effect,authorized,next,known,rfl,_,handle,owner⟩ :=
        captureSave (known.later steps) handle owner (.captureManifest produced.manifest started agrees) rfl executed
      exact ⟨effect,authorized,captureStaged_obeys known handle owner⟩
end

/-! ### Streaming -/

/-- What a reply of `consume` says of the transfer. -/
structure Consumed (grant : Grant) (id : String) (streamed : Vault.Streamed) (row : TransferRow) : Prop where
  handle : row.handle = id
  owner : row.destination = grant
  accepted : row.metadata.receiver.operationId.isSome
  started : row.metadata.receiver.inputStarted = true
  whole : streamed.outcome = .ok () → row.metadata.bytes = some streamed.written.length ∧
    row.metadata.sha256 = some (Sha256.digest streamed.written) ∧
    row.metadata.sourceManifest = some ⟨streamed.written.length,Sha256.digest streamed.written⟩

theorem Consumed.later {streamed : Vault.Streamed} {row next : TransferRow} (consumed : Consumed grant id streamed row)
    (later : Later row next) : Consumed grant id streamed next where
  handle := later.handle.trans consumed.handle
  owner := (later.fixed (.inr (.inr consumed.accepted))).trans consumed.owner
  accepted := by
    obtain ⟨operation,accepted⟩ := Option.isSome_iff_exists.mp consumed.accepted
    exact Option.isSome_iff_exists.mpr ⟨operation,later.receiverOperation operation accepted⟩
  started := later.inputStarted consumed.started
  whole := fun done => by
    obtain ⟨bytes,digest,manifest⟩ := consumed.whole done
    exact ⟨later.bytes _ bytes,later.sha256 _ digest,later.manifest _ manifest⟩

variable {t : Transfer} {writer : Writer} {config : Config}

/-- What is streamed whole is what the manifest says. -/
theorem stream_whole {row : TransferRow} {written : List UInt8} (sound : Sound db)
    (member : row ∈ db.transfers) (accepted : row.metadata.receiver.operationId.isSome)
    (sized : ∀ size ∈ t.bytes, row.metadata.bytes = some size)
    (streamed : Vault.stream row.id t writer db = (written,true)) : row.metadata.bytes = some written.length ∧
      row.metadata.sha256 = some (Sha256.digest written) ∧
      row.metadata.sourceManifest = some ⟨written.length,Sha256.digest written⟩ := by
  rw [Vault.stream] at streamed
  split at streamed
  · rename_i body expected held known
    have copied : written = body.take expected ∧ (body.take expected).length = expected := by
      dsimp only at streamed
      split at streamed
      · split at streamed
        · cases streamed
        · simp only [Prod.mk.injEq,Bool.and_eq_true,decide_eq_true_eq] at streamed
          exact ⟨streamed.1.symm,streamed.2.1⟩
      · simp only [Prod.mk.injEq,Bool.and_eq_true,decide_eq_true_eq] at streamed
        exact ⟨streamed.1.symm,streamed.2.1⟩
    obtain ⟨rfl,length⟩ := copied
    have here := bodyOf_ok.mp held
    have own := sound.rows row member
    obtain ⟨other,there,live,place⟩ := sound.owned _ here
    obtain rfl := sound.places other there row member (placeOf_apart place (.inr rfl))
    obtain ⟨source,inbox,_,space,facts⟩ := own.bodies live
    have one : (⟨inboxBody other.id,inbox⟩ : PayloadRow) = ⟨inboxBody other.id,body⟩ := Table.eq_of_key space here rfl
    cases one
    obtain ⟨ready,equal⟩ := facts.delivered (own.received accepted)
    obtain ⟨size,_,bytes,digest,manifest⟩ := facts.ready ready
    have same : size = expected := Option.some.inj (bytes.symm.trans (sized expected known))
    subst same
    rw [equal size bytes] at length ⊢
    rw [length]
    exact ⟨bytes,digest,manifest⟩
  · cases streamed

/-- The statement of `consume` starts the input of the row that the call has read. -/
theorem consumeTx_started {index : Nat} {answer : Transfer} (executed : consumeTx grant index t db = .ok (answer,after)) :
    ∃ row ∈ after.transfers, row.handle = t.id ∧ row.metadata.receiver.inputStarted = true ∧ answer.bytes = t.bytes := by
  simp only [consumeTx,bind_ok] at executed
  obtain ⟨_,_,_,_,saved⟩ := executed
  obtain ⟨rfl,row,member,named,_,rfl⟩ := save_ok saved
  exact ⟨_,replaced_mem _ member rfl,named,rfl,rfl⟩

theorem consume_obeys (sound : Sound db) :
    Obeys limits (.consume grant id operation writer) (vault.consume grant id operation writer)
      (fun streamed now => ∃ row ∈ now.transfers, Consumed grant id streamed row) db := by
  refine obeys_authorized sound fun old seen known handle owner => obeys_guard known fun now known => ?_
  refine obeys_ensure fun fence => ?_
  simp only [not_or,not_not] at fence
  obtain ⟨claimed,_,_,unstarted⟩ := fence
  have accepted : old.metadata.receiver.operationId.isSome := by rw [claimed]; rfl
  refine obeys_exec_bind (.inl ⟨_,_,rfl,known.named.trans handle⟩) fun now t after steps executed => ?_
  have known := known.later steps
  obtain ⟨row,member,_,seen⟩ := known.seen
  have effect := consumeTx_effect seen member accepted (by simpa using unstarted) executed
  refine ⟨effect,authorized_fixed known handle rfl owner (.inr accepted),?_⟩
  have known := known.later (.single (effect.follows known.sound))
  obtain ⟨begun,there,named,started,bytes⟩ := consumeTx_started executed
  -- What holds of the transfer from here on, whatever is written.
  have since : ∀ {last}, ReflTransGen Follows after last → ∃ row ∈ last.transfers, Later old row ∧
      row.metadata.receiver.inputStarted = true := by
    intro last more
    obtain ⟨next,held,later⟩ := (known.later more).row
    obtain ⟨other,here,onward⟩ := (Follows.of_steps more).later begun there
    obtain rfl := row_unique here held (onward.handle.trans (named.trans (known.named.trans later.handle.symm)))
    exact ⟨other,here,later,onward.inputStarted started⟩
  have consumed : ∀ {row : TransferRow} {streamed : Vault.Streamed}, Later old row → row.metadata.receiver.inputStarted = true →
      (streamed.outcome = .ok () → row.metadata.bytes = some streamed.written.length ∧
        row.metadata.sha256 = some (Sha256.digest streamed.written) ∧
        row.metadata.sourceManifest = some ⟨streamed.written.length,Sha256.digest streamed.written⟩) →
      Consumed grant id streamed row := by
    intro row streamed later started whole
    refine ⟨later.handle.trans handle,(later.fixed (.inr (.inr accepted))).trans owner,?_,started,whole⟩
    exact Option.isSome_iff_exists.mpr ⟨operation,later.receiverOperation operation claimed⟩
  refine .afterQuery (fun _ _ => trivial) fun seen value more found => ?_
  cases found
  obtain ⟨row,member,later,started⟩ := since more
  cases copied : (Vault.stream old.id t writer seen).2 with
  | true =>
    simp only [copied,if_true]
    refine obeys_pure fun last onward => ?_
    obtain ⟨next,there,forth⟩ := (Follows.of_steps onward).later row member
    refine ⟨next,there,(consumed later started fun _ => ?_).later forth⟩
    have place := later.id.symm
    rw [place] at copied ⊢
    refine stream_whole ((known.later more).sound) member ?_ (fun size sized => later.bytes size (bytes.symm.trans sized))
      (Prod.ext rfl copied)
    exact Option.isSome_iff_exists.mpr ⟨operation,later.receiverOperation operation claimed⟩
  | false =>
    simp only [copied,Bool.false_eq_true,if_false]
    have known_ := known.later more
    have interrupted : Obeys limits (.consume grant id operation writer) (Vault.interrupt id) (fun _ _ => True) seen :=
      interrupt_obeys known_.sound (fun t same settled => .inr ⟨t,rfl,same,settled old known_ handle accepted⟩)
      (fun now onward => authorized_fixed (known_.later onward) handle rfl owner (.inr accepted))
    have framed := interrupted.frame (ReflTransGen Follows after) more (fun _ _ steps step => steps.tail step)
      fun statement a answer b steps needs executed =>
        steps.tail ((needs.2 answer b executed).1.follows (known.later steps).sound)
    refine .afterAttempt framed fun outcome now holds => ?_
    cases outcome with
    | ok _ =>
      refine obeys_pure fun last onward => ?_
      obtain ⟨row,member,later,started⟩ := since (holds.2.trans onward)
      exact ⟨row,member,consumed later started nofun⟩
    | error _ =>
      refine obeys_pure fun last onward => ?_
      obtain ⟨row,member,later,started⟩ := since (holds.2.trans onward)
      exact ⟨row,member,consumed later started nofun⟩

/-! ### Retention and closing -/

/-- A part of a call and then the rest. -/
theorem obeys_bind {α β : Type} {call : Program α} {k : α → Program β} {inner : α → Db → Prop} {post : β → Db → Prop}
    (sound : Sound db) (first : Obeys limits method call inner db)
    (then_ : ∀ value now, ReflTransGen Follows db now → inner value now → Obeys limits method (k value) post now) :
    Obeys limits method (call >>= k) post db := by
  have framed := first.frame (ReflTransGen Follows db) .refl (fun _ _ steps step => steps.tail step)
    fun statement a answer b steps needs executed =>
      steps.tail ((needs.2 answer b executed).1.follows ((Follows.of_steps steps).sound sound))
  have both : Obeys limits method call (fun value now => inner value now ∧ ReflTransGen Follows db now) db := by
    refine framed.mono fun outcome now holds => ?_
    cases outcome with
    | ok value => exact holds
    | error _ => trivial
  exact .andThen both (fun _ _ => trivial) fun value now holds => then_ value now holds.2 holds.1

/-- A transfer is interrupted and erased by the runtime. -/
theorem eraseOne_obeys {phase : CapturePhase} (retires : phase.retired = true) (caller : method.caller = none)
    (saves : ∀ t, Issues limits method (.save t)) (erases : ∀ id, Issues limits method (.erase id phase none))
    {α : Type} {k : Program α} {post : α → Db → Prop} (sound : Sound db)
    (then_ : ∀ now, Sound now → ReflTransGen Follows db now →
      (∃ row ∈ now.transfers, row.handle = t.id ∧ row.metadata.capture.retired = true) → Obeys limits method k post now) :
    Obeys limits method (Vault.interrupt t.id >>= fun _ => exec (.erase t.id phase none) >>= fun _ => k) post db := by
  have interrupted : Obeys limits method (Vault.interrupt t.id) (fun _ _ => True) db :=
    interrupt_obeys sound (fun t _ _ => saves t) fun _ _ => authorized_none caller
  refine obeys_bind sound interrupted fun _ middle before _ => obeys_exec_bind (erases t.id) fun now answer after steps executed => ?_
  have here := (Follows.of_steps (before.trans steps)).sound sound
  obtain ⟨effect,_⟩ := eraseTx_effect (fun row member => (here.rows row member).named) retires executed
  refine ⟨effect,authorized_none caller,?_⟩
  have follows := effect.follows here
  refine then_ after (follows.sound here) ((before.trans steps).tail follows) ?_
  cases effect with
  | again _ _ repeats => cases repeats
  | erase _ _ _ _ row member named => exact ⟨_,replaced_mem _ member rfl,named,retires⟩

theorem expireAll_obeys {timestamp count : Nat} {list : List Transfer} (sound : Sound db) :
    Obeys limits .expire (Vault.expireAll timestamp list count) (fun _ _ => True) db := by
  induction list generalizing db count with
  | nil => exact obeys_pure fun _ _ => trivial
  | cons t rest ih =>
    rw [Vault.expireAll]
    split
    · refine eraseOne_obeys rfl rfl ?_ ?_ sound fun _ sound _ _ => ih sound
      · exact fun t => .inl ⟨t,rfl⟩
      · exact fun id => .inr ⟨id,rfl⟩
    · exact ih sound

theorem expire_obeys (sound : Sound db) : Obeys limits .expire Vault.expire (fun _ _ => True) db := by
  refine .afterQuery (fun _ _ => trivial) fun seen _ steps _ => .afterQuery (fun _ _ => trivial) fun now _ more _ => ?_
  exact expireAll_obeys ((Follows.of_steps (steps.trans more)).sound sound)

/-- A vault that was closed, and erased as a whole. -/
structure Cleaned (db : Db) : Prop where
  closed : db.closed = true
  retired : ∀ row ∈ db.transfers, row.metadata.capture.retired = true

theorem Cleaned.follows (cleaned : Cleaned db) (follows : Follows db after) : Cleaned after where
  closed := follows.closed cleaned.closed
  retired := fun next there => by
    obtain ⟨row,member,same⟩ := follows.last cleaned.closed next there
    exact (follows.row member there same.symm).retired (cleaned.retired row member)

/-- A vault that was erased as a whole holds nothing. -/
theorem Cleaned.empty (cleaned : Cleaned db) (sound : Sound db) :
    db.payloads.rows = [] ∧ ∀ row ∈ db.transfers, row.capacity = 0 := by
  refine ⟨List.eq_nil_iff_forall_not_mem.mpr fun body held => ?_,fun row member => ?_⟩
  · obtain ⟨row,member,live,_⟩ := sound.owned body held
    rw [cleaned.retired row member] at live
    cases live
  · exact (sound.rows row member).erased (cleaned.retired row member)

theorem Cleaned.capacity (cleaned : Cleaned db) (sound : Sound db) :
    (db.transfers.rows.map TransferRow.capacity).sum = 0 :=
  List.sum_eq_zero_iff_forall_eq_nat.mpr fun n member => by
    obtain ⟨row,here,rfl⟩ := List.mem_map.mp member
    exact (cleaned.empty sound).2 row here

theorem eraseAll_obeys {list : List Transfer} (sound : Sound db) :
    Obeys limits .close (Vault.eraseAll list) (fun _ now => ∀ t ∈ list, ∃ row ∈ now.transfers, row.handle = t.id ∧
      row.metadata.capture.retired = true) db := by
  induction list generalizing db with
  | nil => exact obeys_pure fun _ _ t member => absurd member List.not_mem_nil
  | cons t rest ih =>
    refine eraseOne_obeys rfl rfl ?_ ?_ sound fun now sound _ erased => ?_
    · exact fun t => .inr (.inl ⟨t,rfl⟩)
    · exact fun id => .inr (.inr ⟨id,rfl⟩)
    -- What is erased stays erased while the rest is.
    have framed := (ih sound).frame (ReflTransGen Follows now) .refl (fun _ _ steps step => steps.tail step)
      fun statement a answer b steps needs executed =>
        steps.tail ((needs.2 answer b executed).1.follows ((Follows.of_steps steps).sound sound))
    refine framed.mono fun outcome last holds => ?_
    cases outcome with
    | error _ => trivial
    | ok _ =>
      intro other member
      rcases List.mem_cons.mp member with rfl | later
      · obtain ⟨row,here,named,retired⟩ := erased
        obtain ⟨next,there,onward⟩ := (Follows.of_steps holds.2).later row here
        exact ⟨next,there,onward.handle.trans named,onward.retired retired⟩
      · exact holds.1 other later

theorem close_obeys (sound : Sound db) :
    Obeys limits .close Vault.close (fun receipt now => Cleaned now ∧ receipt.remainingPayloadBytes = 0 ∧
      receipt.storageCleanupVerified = true) db := by
  refine obeys_exec_bind (.inl rfl) fun now answer shut steps executed => ?_
  have here := (Follows.of_steps steps).sound sound
  cases executed
  have effect := Effect.close now
  refine ⟨effect,authorized_none rfl,.afterQuery (fun _ _ => trivial) fun seen ids more found => ?_⟩
  cases found
  have follows := (effect.follows here).trans (Follows.of_steps more)
  have sound := follows.sound here
  have closed : seen.closed = true := (Follows.of_steps more).closed rfl
  refine obeys_bind sound (eraseAll_obeys sound) fun _ last onward erased => ?_
  have following := Follows.of_steps onward
  have cleaned : Cleaned last := by
    refine ⟨following.closed closed,fun next there => ?_⟩
    obtain ⟨row,member,same⟩ := following.last closed next there
    obtain ⟨other,held,named,retired⟩ := erased row.metadata (List.mem_map_of_mem member)
    rw [row_unique held there (named.trans ((sound.rows row member).named.trans same))] at retired
    exact retired
  have sound := following.sound sound
  have clean : ∀ {state}, ReflTransGen Follows last state → Cleaned state ∧ Sound state := fun path =>
    ⟨cleaned.follows (Follows.of_steps path),(Follows.of_steps path).sound sound⟩
  refine .afterQuery (fun _ _ => trivial) fun first remaining path found => ?_
  cases found
  refine .afterQuery (fun _ _ => trivial) fun second capacity path_ found => ?_
  cases found
  refine .afterQuery (fun _ _ => trivial) fun third current path__ found => obeys_pure fun final rest => ?_
  obtain ⟨cleaned,sound⟩ := clean path
  obtain ⟨cleaned_,sound_⟩ := clean (path.trans path_)
  have none_ := (cleaned.empty sound).1
  refine ⟨(clean (((path.trans path_).trans path__).trans rest)).1,?_,?_⟩
  · simp [none_]
  · simp [none_,cleaned_.capacity sound_]

/-! ### Every call -/

/-- What a call may execute. -/
def Allowed (request : Request) (statement : Statement) (db : Db) : Prop :=
  match request with
  | .tick clock => statement = .setClock clock
  | .call _ _ limits method => Needs limits method statement db

/-- What a reply of a call promises. -/
def Promised (request : Request) (reply : Except Error Reply) (db : Db) : Prop :=
  match request,reply with
  | .call _ _ _ (.consume grant id _ _),.ok (.streamed streamed) => ∃ row ∈ db.transfers, Consumed grant id streamed row
  | .call _ _ _ .close,.ok (.closed receipt) =>
    Cleaned db ∧ receipt.remainingPayloadBytes = 0 ∧ receipt.storageCleanupVerified = true
  | _,_ => True

/-- A method whose reply promises nothing. -/
theorem method_meets {α : Type} {workspace cell : String} {call : Program α} {wrap : α → Reply}
    (obeys : Obeys limits method call (fun _ _ => True) db)
    (nothing : ∀ reply now, Promised (.call workspace cell limits method) reply now) :
    (do return wrap (← call) : Program Reply).run.Meets execute Follows (Needs limits method)
      (Promised (.call workspace cell limits method)) db :=
  .andThen obeys (fun error now => nothing (.error error) now) fun _ _ _ now _ => nothing _ now

theorem Method.meets (workspace cell : String) (method : Method) (same : vault.limits = limits) (sound : Sound db) :
    (method.program vault).run.Meets execute Follows (Needs limits method)
      (Promised (.call workspace cell limits method)) db := by
  cases method with
  | prepare => exact method_meets (prepare_obeys same) fun _ _ => trivial
  | handoff => exact method_meets (handoff_obeys sound) fun _ _ => trivial
  | status => exact method_meets (status_obeys sound) fun _ _ => trivial
  | beginCapture => exact method_meets (beginCapture_obeys sound) fun _ _ => trivial
  | finishSource => exact method_meets (finishSource_obeys sound) fun _ _ => trivial
  | capture => exact method_meets (capture_obeys sound) fun _ _ => trivial
  | deliver => exact method_meets (deliver_obeys sound) fun _ _ => trivial
  | beginReceive => exact method_meets (beginReceive_obeys sound) fun _ _ => trivial
  | consume =>
    refine .andThen (consume_obeys sound) (fun _ _ => trivial) fun streamed now consumed last steps => ?_
    obtain ⟨row,member,consumed⟩ := consumed
    obtain ⟨next,there,later⟩ := (Follows.of_steps steps).later row member
    exact ⟨next,there,consumed.later later⟩
  | finishReceive => exact method_meets (finishReceive_obeys sound) fun _ _ => trivial
  | observe => exact method_meets (observe_obeys sound) fun _ _ => trivial
  | interrupt id =>
    refine method_meets (interrupt_obeys sound (fun t named _ => ?_) fun _ _ => authorized_none rfl) fun _ _ => trivial
    exact ⟨t,rfl,named⟩
  | release => exact method_meets (release_obeys sound) fun _ _ => trivial
  | expire => exact method_meets (expire_obeys sound) fun _ _ => trivial
  | close =>
    refine .andThen (close_obeys sound) (fun _ _ => trivial) fun receipt now clean last steps => ?_
    exact ⟨clean.1.follows (Follows.of_steps steps),clean.2⟩

theorem code_meets (request : Request) (sound : Sound db) :
    (code request).Meets execute Follows (Allowed request) (Promised request) db := by
  cases request with
  | tick clock => exact .afterSubmit (fun _ _ => trivial) (fun _ _ => rfl) fun _ _ _ _ _ _ _ => trivial
  | call workspace cell limits method =>
    change (openVault workspace cell limits >>= method.program).run.Meets _ _ _ _ _
    rw [openVault,bind_assoc]
    refine .afterSettle (fun _ _ => by cases method <;> trivial) fun _ _ => ?_
    rw [bind_assoc]
    refine .afterQuery (fun _ _ => by cases method <;> trivial) fun seen _ steps _ => ?_
    exact method.meets workspace cell rfl ((Follows.of_steps steps).sound sound)

theorem Sound.empty (workspace cell : String) : Sound (Db.empty workspace cell) :=
  ⟨fun row member => absurd member (Table.not_mem_empty row),fun row member => absurd member (Table.not_mem_empty row),
    fun body member => absurd member (Table.not_mem_empty body)⟩

/-- Every state of a run is sound, every event moves its rows forward by an allowed
    statement with its effect, and every reply is as promised. -/
theorem Reached.kept {workspace cell : String} (reached : Reached workspace cell config) :
    Sound config.state ∧ Throughout (fun _ event => Sound event.before ∧ Sound event.after ∧
      Follows event.before event.after ∧
      (∀ statement, event.did = some statement → Allowed event.request statement event.before) ∧
      ∀ reply, event.reply = some reply → Promised event.request reply event.after) config.log := by
  refine reached.guarded Sound Follows Allowed Promised (Sound.empty workspace cell) Follows.refl
    (fun request _ sound => code_meets request sound) fun request statement db answer after sound allowed executed => ?_
  have effect : Effect statement db after := by
    cases request with
    | tick clock =>
      obtain rfl : statement = .setClock clock := allowed
      cases executed
      exact .setClock clock db
    | call workspace cell limits method => exact (allowed.2 answer after executed).1
  exact ⟨(effect.follows sound).sound sound,effect.follows sound⟩

/-- An event as the proofs use it: what a statement does, and who had it executed. -/
structure Regular (event : Event) : Prop where
  before : Sound event.before
  after : Sound event.after
  follows : Follows event.before event.after
  still : event.did = none → event.after = event.before
  executed : ∀ statement, event.did = some statement → ∃ answer, execute statement event.before = .ok (answer,event.after)
  effect : ∀ statement, event.did = some statement → Effect statement event.before event.after
  issued : ∀ statement, event.did = some statement → ∀ workspace cell limits method,
    event.request = .call workspace cell limits method → Issues limits method statement ∧ Authorized method event.before
  ticks : ∀ clock, event.request = .tick clock → ∀ statement, event.did = some statement → statement = .setClock clock
  promised : ∀ reply, event.reply = some reply → Promised event.request reply event.after

theorem Reached.regular {workspace cell : String} (reached : Reached workspace cell config) :
    Throughout (fun _ event => Regular event) config.log := by
  refine (reached.kept.2.and reached.committed).mono ?_
  rintro _ event ⟨⟨before,after,follows,allowed,promised⟩,committed⟩
  rw [Interleaving.Committed] at committed
  have executed : ∀ statement, event.did = some statement →
      ∃ answer, execute statement event.before = .ok (answer,event.after) := by
    intro statement did
    rw [did] at committed
    exact committed
  refine ⟨before,after,follows,fun none_ => ?_,executed,fun statement did => ?_,fun statement did _ _ limits method asked => ?_,
    fun clock asked statement did => ?_,promised⟩
  · rw [none_] at committed
    exact committed
  · obtain ⟨answer,executed⟩ := executed statement did
    have allowed := allowed statement did
    cases asked : event.request with
    | tick clock =>
      rw [asked] at allowed
      obtain rfl : statement = .setClock clock := allowed
      have same : event.after = { event.before with clock := clock } :=
        (Prod.mk.inj (Except.ok.inj executed)).2.symm
      rw [same]
      exact .setClock clock event.before
    | call _ _ limits method =>
      rw [asked] at allowed
      exact (allowed.2 answer event.after executed).1
  · obtain ⟨answer,executed⟩ := executed statement did
    have allowed := allowed statement did
    rw [asked] at allowed
    exact ⟨allowed.1,(allowed.2 answer event.after executed).2⟩
  · have allowed := allowed statement did
    rw [asked] at allowed
    exact allowed

/-- What has become of the rows of an event at the end of the run. -/
theorem Reached.onward {workspace cell : String} (reached : Reached workspace cell config) {event : Event}
    (member : event ∈ config.log) : Follows event.after config.state := by
  obtain ⟨newer,older,split⟩ := List.append_of_mem member
  have steps : ∀ seen ∈ newer, Follows seen.before seen.after := by
    intro seen later
    refine (reached.regular.all seen ?_).follows
    rw [split]
    exact List.mem_append_left _ later
  have linked := reached.linked
  rw [split] at linked
  exact Follows.of_steps (linked.across steps)
end

end Proofstorm.Custody
