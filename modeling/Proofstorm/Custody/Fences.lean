import Proofstorm.Custody.Obligations

/-!
Native work is fenced at most once. An accepted operation stays with its stage, so
the transaction that would accept a second one finds the fence closed (`Marked`).
-/
namespace Proofstorm.Custody
open Proofstorm.Interleaving (Throughout Call query_bind settle_bind submit_bind)

/-- The two ends of a transfer. -/
inductive Stage
  | source | receiver
  deriving DecidableEq

def Transfer.stage (t : Transfer) : Stage → NativeStage
  | .source => t.source
  | .receiver => t.receiver

/-- The event accepts an operation for a stage of a transfer. -/
def Accepts (event : Event) (id : String) (stage : Stage) (operation : String) : Prop :=
  match stage with
  | .source => ∃ grant t, event.did = some (.beginCapture grant t operation) ∧ t.id = id
  | .receiver => ∃ grant index t, event.did = some (.beginReceive grant index t operation) ∧ t.id = id

/-- The event starts the input of the consumer of a transfer. -/
def Starts (event : Event) (id : String) : Prop :=
  ∃ grant index t, event.did = some (.consume grant index t) ∧ t.id = id

/-- The call that ended with the event was told that its operation is the one of the stage. -/
def Succeeds (event : Event) (id : String) (stage : Stage) (operation : String) : Prop :=
  ∃ workspace cell limits grant, (∃ t, event.reply = some (.ok (.transfer t))) ∧
    event.request = .call workspace cell limits (match stage with
      | .source => .beginCapture grant id operation
      | .receiver => .beginReceive grant id operation)

section
variable {db after : Db} {row next : TransferRow} {operation : String}

theorem Later.stageOperation (later : Later row next) (stage : Stage) :
    ∀ operation ∈ (row.metadata.stage stage).operationId, (next.metadata.stage stage).operationId = some operation := by
  cases stage with
  | source => exact later.sourceOperation
  | receiver => exact later.receiverOperation

theorem Later.stageReceipt (later : Later row next) (stage : Stage) :
    ∀ receipt ∈ (row.metadata.stage stage).receipt, (next.metadata.stage stage).receipt = some receipt := by
  cases stage with
  | source => exact later.sourceReceipt
  | receiver => exact later.receiverReceipt

theorem Transfer.runs_stage {t : Transfer} : t.runs operation ↔ ∃ stage, (t.stage stage).operationId = some operation := by
  constructor
  · rintro (source | receiver)
    · exact ⟨.source,source⟩
    · exact ⟨.receiver,receiver⟩
  · rintro ⟨stage,same⟩
    cases stage with
    | source => exact .inl same
    | receiver => exact .inr same

/-! ### What one event does to the fences -/

/-- The stage had no operation, no stage had this operation, and now the stage has it. -/
structure Claimed (db after : Db) (id : String) (stage : Stage) (operation : String) : Prop where
  vacant : ∀ row ∈ db.transfers, row.handle = id → (row.metadata.stage stage).operationId = none
  unclaimed : ∀ row ∈ db.transfers, ∀ stage, (row.metadata.stage stage).operationId ≠ some operation
  taken : ∃ row ∈ after.transfers, row.handle = id ∧ (row.metadata.stage stage).operationId = some operation

variable [Sha256]

variable {t : Transfer} {event : Event}

theorem Effect.claims_source {grant : Grant} (effect : Effect (.beginCapture grant t operation) db after)
    (sound : Sound db) : Claimed db after t.id .source operation := by
  cases effect with
  | again _ _ repeats => cases repeats
  | beginCapture _ _ _ _ row member named reserved unclaimed =>
    refine ⟨fun other there same => ?_,fun other there stage same => ?_,_,replaced_mem _ member rfl,named,rfl⟩
    · obtain rfl := row_unique there member (same.trans named.symm)
      exact (sound.rows other there).unclaimed reserved
    · exact unclaimed other there (Transfer.runs_stage.mpr ⟨stage,same⟩)

theorem Effect.claims_receiver {grant : Grant} {index : Nat}
    (effect : Effect (.beginReceive grant index t operation) db after) : Claimed db after t.id .receiver operation := by
  cases effect with
  | again _ _ repeats => cases repeats
  | beginReceive _ _ _ _ _ row member named _ _ unread unclaimed =>
    refine ⟨fun other there same => ?_,fun other there stage same => ?_,_,replaced_mem _ member rfl,named,rfl⟩
    · obtain rfl := row_unique there member (same.trans named.symm)
      exact unread
    · exact unclaimed other there (Transfer.runs_stage.mpr ⟨stage,same⟩)

theorem Effect.starts {grant : Grant} {index : Nat} (effect : Effect (.consume grant index t) db after) :
    (∀ row ∈ db.transfers, row.handle = t.id → row.metadata.receiver.inputStarted = false) ∧
      ∃ row ∈ after.transfers, row.handle = t.id ∧ row.metadata.receiver.inputStarted = true := by
  cases effect with
  | again _ _ repeats => cases repeats
  | consume _ _ _ _ row member named _ _ unstarted =>
    refine ⟨fun other there same => ?_,_,replaced_mem _ member rfl,named,rfl⟩
    obtain rfl := row_unique there member (same.trans named.symm)
    exact unstarted

theorem Regular.claimed {id : String} {stage : Stage} (regular : Regular event)
    (accepts : Accepts event id stage operation) : Claimed event.before event.after id stage operation := by
  cases stage with
  | source =>
    obtain ⟨grant,t,did,rfl⟩ := accepts
    exact (regular.effect _ did).claims_source regular.before
  | receiver =>
    obtain ⟨grant,index,t,did,rfl⟩ := accepts
    exact (regular.effect _ did).claims_receiver

/-! ### Runs of the vault -/

/-- What the log has accepted and started is marked in the rows. -/
structure Marked (log : List Event) (db : Db) : Prop where
  accepted : ∀ event ∈ log, ∀ id stage operation, Accepts event id stage operation →
    ∃ row ∈ db.transfers, row.handle = id ∧ (row.metadata.stage stage).operationId = some operation
  started : ∀ event ∈ log, ∀ id, Starts event id →
    ∃ row ∈ db.transfers, row.handle = id ∧ row.metadata.receiver.inputStarted = true

theorem Marked.cons {log : List Event} {event : Event} (marked : Marked log event.before) (regular : Regular event) :
    Marked (event :: log) event.after := by
  refine ⟨fun seen member id stage operation accepts => ?_,fun seen member id starts => ?_⟩
  · rcases List.mem_cons.mp member with rfl | earlier
    · exact (regular.claimed accepts).taken
    · obtain ⟨row,there,named,taken⟩ := marked.accepted seen earlier id stage operation accepts
      obtain ⟨next,here,later⟩ := regular.follows.later row there
      exact ⟨next,here,later.handle.trans named,later.stageOperation stage operation taken⟩
  · rcases List.mem_cons.mp member with rfl | earlier
    · obtain ⟨grant,index,t,did,rfl⟩ := starts
      exact (regular.effect _ did).starts.2
    · obtain ⟨row,there,named,started⟩ := marked.started seen earlier id starts
      obtain ⟨next,here,later⟩ := regular.follows.later row there
      exact ⟨next,here,later.handle.trans named,later.inputStarted started⟩

/-- What an event may do where the fences are marked. -/
structure Fenced (older : List Event) (event : Event) : Prop where
  stages : ∀ id stage operation, Accepts event id stage operation → ∀ earlier ∈ older, ∀ operation',
    ¬ Accepts earlier id stage operation'
  operations : ∀ id stage operation, Accepts event id stage operation → ∀ earlier ∈ older, ∀ id' stage',
    ¬ Accepts earlier id' stage' operation
  inputs : ∀ id, Starts event id → ∀ earlier ∈ older, ¬ Starts earlier id
  receipts : ∀ row ∈ event.before.transfers, ∃ next ∈ event.after.transfers, next.handle = row.handle ∧
    ∀ stage, ∀ receipt ∈ (row.metadata.stage stage).receipt, (next.metadata.stage stage).receipt = some receipt

theorem Marked.fenced {older : List Event} (marked : Marked older event.before) (regular : Regular event) :
    Fenced older event := by
  refine ⟨fun id stage operation accepts earlier member operation' before => ?_,
    fun id stage operation accepts earlier member id' stage' before => ?_,fun id starts earlier member before => ?_,
    fun row member => ?_⟩
  · obtain ⟨row,there,named,taken⟩ := marked.accepted earlier member id stage operation' before
    rw [(regular.claimed accepts).vacant row there named] at taken
    cases taken
  · obtain ⟨row,there,_,taken⟩ := marked.accepted earlier member id' stage' operation before
    exact (regular.claimed accepts).unclaimed row there stage' taken
  · obtain ⟨row,there,named,started⟩ := marked.started earlier member id before
    obtain ⟨grant,index,t,did,rfl⟩ := starts
    rw [(regular.effect _ did).starts.1 row there named] at started
    cases started
  · obtain ⟨next,here,later⟩ := regular.follows.later row member
    exact ⟨next,here,later.handle,later.stageReceipt⟩

theorem Reached.fenced {workspace cell : String} {config : Config} (reached : Reached workspace cell config) :
    Throughout Fenced config.log := by
  have first : Marked [] (Db.empty workspace cell) :=
    ⟨fun _ member => absurd member List.not_mem_nil,fun _ member => absurd member List.not_mem_nil⟩
  have step : ∀ older event, Marked older event.before → Regular event →
      Marked (event :: older) event.after ∧ Fenced older event :=
    fun _ _ marked regular => ⟨marked.cons regular,marked.fenced regular⟩
  exact (reached.linked.induction reached.regular first step).2

/-! ### What a reply says -/

/-- The replies that come with a statement of their call. -/
def Counted (request : Request) (reply : Except Error Reply) : Prop :=
  match request with
  | .call _ _ _ (.beginCapture ..) | .call _ _ _ (.capture ..) | .call _ _ _ (.deliver ..) | .call _ _ _ (.beginReceive ..) =>
    ∃ t, reply = .ok (.transfer t)
  | .call _ _ _ (.consume ..) => ∃ written, reply = .ok (.streamed ⟨written,.error .delivery⟩)
  | _ => False

/-- The statements that they come with. -/
def Earned (request : Request) (statement : Statement) : Prop :=
  match request with
  | .call _ _ _ (.beginCapture grant _ operation) => ∃ t, statement = .beginCapture grant t operation
  | .call _ _ _ (.capture grant _ _ reader _) => ∃ index t, statement = .stage grant index t reader
  | .call _ _ _ (.deliver grant _) => ∃ index t, statement = .deliver grant index t
  | .call _ _ _ (.beginReceive grant _ operation) => ∃ index t, statement = .beginReceive grant index t operation
  | .call _ _ _ (.consume ..) => ∃ t, statement = .save t
  | _ => False

/-- A save fails with an error of its own. -/
def Faults (statement : Statement) (error : Error) : Prop := ∀ t, statement = .save t → error ≠ .delivery

omit [Sha256] in
theorem save_faults {error : Error} (failed : Custody.save t db = .error error) : error ≠ .delivery := by
  rintro rfl
  rw [Custody.save] at failed
  by_cases bounded : t.revision < 2^63
  · rw [ensure_of bounded,ok_bind] at failed
    by_cases current : ∃ row ∈ db.transfers.rows, row.handle = t.id ∧ row.metadata.revision = t.revision
    · rw [ensure_of current] at failed
      cases failed
    · rw [ensure_error current] at failed
      cases failed
  · rw [ensure_error bounded] at failed
    cases failed

section
variable {α : Type} {counts : Except Error Reply → Prop} {earns : Statement → Prop}

omit [Sha256] in
theorem earns_open {workspace cell : String} {limits : Limits} {k : Vault → Program Reply}
    (failed : ∀ error, ¬ counts (.error error)) (then_ : ∀ vault, (k vault).run.Earns Faults earns counts) :
    (openVault workspace cell limits >>= k).run.Earns Faults earns counts := by
  rw [openVault,bind_assoc]
  refine .afterSettle failed fun _ => ?_
  rw [bind_assoc]
  exact .afterQuery failed fun _ => then_ _

variable {vault : Vault} {id : String} {reader : Reader}

omit [Sha256] in
theorem earns_authorized {grant : Grant} {side : Vault.Side} {k : Nat × Transfer → Program Reply}
    (failed : ∀ error, ¬ counts (.error error)) (then_ : ∀ found, (k found).run.Earns Faults earns counts) :
    (vault.authorized grant id side >>= k).run.Earns Faults earns counts := by
  rw [Vault.authorized,bind_assoc]
  exact .afterSettle failed fun _ => .afterQuery failed then_

omit [Sha256] in
theorem beginCapture_earns {grant : Grant} {operation : String} (failed : ∀ error, ¬ counts (.error error))
    (earned : ∀ t, earns (.beginCapture grant t operation)) :
    (do return .transfer (← vault.beginCapture grant id operation) : Program Reply).run.Earns Faults earns counts := by
  rw [Vault.beginCapture,bind_assoc]
  refine earns_authorized failed fun found => ?_
  simp only [bind_assoc]
  exact .afterQuery failed fun _ => .afterSettle failed fun _ => .afterSettle failed fun _ => .lastSubmit failed (earned _)

omit [Sha256] in
theorem beginReceive_earns {grant : Grant} {operation : String} (failed : ∀ error, ¬ counts (.error error))
    (earned : ∀ index t, earns (.beginReceive grant index t operation)) :
    (do return .transfer (← vault.beginReceive grant id operation) : Program Reply).run.Earns Faults earns counts := by
  rw [Vault.beginReceive,bind_assoc]
  refine earns_authorized failed fun found => ?_
  simp only [bind_assoc]
  exact .afterQuery failed fun _ => .afterSettle failed fun _ => .afterSettle failed fun _ =>
    .lastSubmit failed (earned found.1 found.2)

omit [Sha256] in
theorem deliver_earns {grant : Grant} (failed : ∀ error, ¬ counts (.error error))
    (earned : ∀ index t, earns (.deliver grant index t)) :
    (do return .transfer (← vault.deliver grant id) : Program Reply).run.Earns Faults earns counts := by
  rw [Vault.deliver,bind_assoc]
  refine earns_authorized failed fun found => ?_
  simp only [bind_assoc]
  exact .afterQuery failed fun _ => .afterSettle failed fun _ => .lastSubmit failed (earned found.1 found.2)

omit [Sha256] in
theorem failCapture_earns (failed : ∀ error, ¬ counts (.error error)) :
    (do return .transfer (← Vault.failCapture t) : Program Reply).run.Earns Faults earns counts := by
  rw [Vault.failCapture,bind_assoc]
  exact .afterSubmit failed fun _ => failed _

omit [Sha256] in
/-- The capture counts with its transaction. -/
theorem captureStaged_earns {grant : Grant} {index : Nat}
    (failed : ∀ error, ¬ counts (.error error)) (earned : earns (.stage grant index t reader)) :
    (do return .transfer (← Vault.captureStaged grant index t reader) : Program Reply).run.Earns Faults earns counts := by
  rw [Vault.captureStaged,bind_assoc,submit_bind]
  refine ⟨fun error _ => failed error,fun answer => ?_⟩
  cases answer with
  | ready next => exact .inl ⟨earned,_,rfl⟩
  | aborted =>
    refine .inr ?_
    simp only [Interleaving.proceed_ok,Vault.readRow,bind_assoc]
    refine .afterQuery failed fun found => ?_
    split
    · rw [bind_assoc]
      exact .afterSubmit failed fun _ => failed _
    · exact failed _

omit [Sha256] in
theorem capture_earns {grant : Grant} {operation : String} {produced : ProducedPayload}
    (failed : ∀ error, ¬ counts (.error error)) (earned : ∀ index t, earns (.stage grant index t reader)) :
    (do return .transfer (← vault.capture grant id operation reader produced) : Program Reply).run.Earns
      Faults earns counts := by
  rw [Vault.capture,bind_assoc]
  refine earns_authorized failed fun found => ?_
  simp only [bind_assoc]
  refine .afterQuery failed fun _ => .afterSettle failed fun _ => .afterSettle failed fun _ => .afterSubmit failed fun t => ?_
  split
  · exact failCapture_earns failed
  · split
    · exact failCapture_earns failed
    · simp only [bind_assoc]
      exact .afterSettle failed fun _ => .afterSubmit failed fun t => captureStaged_earns failed (earned _ t)

omit [Sha256] in
/-- After a broken stream the reply comes with the interruption, or has another error. -/
theorem interrupt_earns {written : List UInt8}
    (other : ∀ error, counts (.ok (.streamed ⟨written,.error error⟩)) → error = .delivery) (earned : ∀ t, earns (.save t)) :
    (do return .streamed (← (do match ← Interleaving.attempt (Vault.interrupt id) with
          | .ok _ => pure ⟨written,.error .delivery⟩
          | .error error => pure ⟨written,.error error⟩ : Program Vault.Streamed)) : Program Reply).run.Earns
      Faults earns counts := by
  rw [bind_assoc,ExceptT.run_bind,Interleaving.run_attempt,bind_assoc,Vault.interrupt,Vault.readRow,query_bind]
  intro db
  cases found : rowOf id db with
  | error error =>
    simp only [found,error_bind,Interleaving.proceed_error]
    intro counted
    cases other error counted
    rw [rowOf] at found
    cases transfer : db.transfers.find id <;> (rw [transfer] at found; cases found)
  | ok row =>
    simp only [found,ok_bind]
    refine ⟨fun error fault counted => ?_,fun answer => .inl ⟨earned _,_,rfl⟩⟩
    exact fault _ rfl (other error counted)

omit [Sha256] in
theorem consume_earns {grant : Grant} {operation : String} {writer : Writer}
    (failed : ∀ error, ¬ counts (.error error))
    (other : ∀ written outcome, counts (.ok (.streamed ⟨written,outcome⟩)) → outcome = .error .delivery)
    (earned : ∀ t, earns (.save t)) :
    (do return .streamed (← vault.consume grant id operation writer) : Program Reply).run.Earns Faults earns counts := by
  rw [Vault.consume,bind_assoc]
  refine earns_authorized failed fun found => ?_
  simp only [bind_assoc]
  refine .afterQuery failed fun _ => .afterSettle failed fun _ => .afterSubmit failed fun t => .afterQuery failed fun streamed => ?_
  split
  · exact fun counted => by cases other _ _ counted
  · exact interrupt_earns (fun error counted => Except.error.inj (other _ _ counted)) earned

omit [Sha256] in
theorem not_counted (request : Request) (error : Error) : ¬ Counted request (.error error) := by
  intro counted
  cases request with
  | tick => exact counted
  | call _ _ _ method =>
    cases method with
    | beginCapture =>
      obtain ⟨_,same⟩ := counted
      cases same
    | capture =>
      obtain ⟨_,same⟩ := counted
      cases same
    | deliver =>
      obtain ⟨_,same⟩ := counted
      cases same
    | beginReceive =>
      obtain ⟨_,same⟩ := counted
      cases same
    | consume =>
      obtain ⟨_,same⟩ := counted
      cases same
    | _ => exact counted

theorem code_earns (request : Request) : (code request).Earns Faults (Earned request) (Counted request) := by
  have failed := not_counted request
  cases request with
  | tick clock =>
    have never : ∀ reply, ¬ Counted (.tick clock) reply := fun _ never => never
    exact Call.earns_never never _
  | call workspace cell limits method =>
    cases method with
    | beginCapture grant id operation =>
      exact earns_open failed fun vault => beginCapture_earns failed fun t => ⟨t,rfl⟩
    | capture grant id operation reader produced =>
      exact earns_open failed fun vault => capture_earns failed fun index t => ⟨index,t,rfl⟩
    | deliver grant id =>
      exact earns_open failed fun vault => deliver_earns failed fun index t => ⟨index,t,rfl⟩
    | beginReceive grant id operation =>
      exact earns_open failed fun vault => beginReceive_earns failed fun index t => ⟨index,t,rfl⟩
    | consume grant id operation writer =>
      refine earns_open failed fun vault => consume_earns failed (fun written outcome counted => ?_) fun t => ⟨t,rfl⟩
      obtain ⟨_,same⟩ := counted
      cases same
      rfl
    | _ =>
      refine Call.earns_never (fun reply counted => ?_) _
      exact counted
end

theorem Reached.earned {workspace cell : String} {config : Config} (reached : Reached workspace cell config) :
    Throughout (fun _ event => ∀ reply, event.reply = some reply → Counted event.request reply →
      ∃ statement, event.did = some statement ∧ Earned event.request statement) config.log := by
  refine (Interleaving.Reachable.earned Faults Earned Counted reached (fun _ _ _ => by decide) ?_ code_earns).2
  rintro statement db error failed t rfl
  exact save_faults failed

/-- A call that was told that its operation is accepted had it accepted with that very event. -/
theorem Regular.succeeds {id operation : String} {stage : Stage} (regular : Regular event)
    (earned : ∀ reply, event.reply = some reply → Counted event.request reply →
      ∃ statement, event.did = some statement ∧ Earned event.request statement)
    (succeeds : Succeeds event id stage operation) : Accepts event id stage operation := by
  obtain ⟨workspace,cell,limits,grant,⟨t,replied⟩,asked⟩ := succeeds
  cases stage with
  | source =>
    obtain ⟨statement,did,t,rfl⟩ : ∃ statement, event.did = some statement ∧ ∃ t, statement = .beginCapture grant t operation := by
      have found := earned _ replied
      rw [asked] at found
      exact found ⟨t,rfl⟩
    obtain ⟨⟨_,same,named⟩,_⟩ := regular.issued _ did _ _ _ _ asked
    cases same
    exact ⟨grant,_,did,named⟩
  | receiver =>
    obtain ⟨statement,did,index,t,rfl⟩ : ∃ statement, event.did = some statement ∧
        ∃ index t, statement = .beginReceive grant index t operation := by
      have found := earned _ replied
      rw [asked] at found
      exact found ⟨t,rfl⟩
    obtain ⟨⟨_,_,same,named⟩,_⟩ := regular.issued _ did _ _ _ _ asked
    cases same
    exact ⟨grant,_,_,did,named⟩

/-- Native work is fenced at most once, in every run of any calls. A stage of a
    transfer accepts one operation, no operation is accepted twice, the input of a
    consumer starts once, and a stage that has a receipt keeps it. -/
theorem fenced_at_most_once {workspace cell : String} {config : Config} (reached : Reached workspace cell config) :
    Throughout (fun older event =>
      (∀ id stage operation, Succeeds event id stage operation → Accepts event id stage operation) ∧
      (∀ id stage operation, Accepts event id stage operation → ∀ earlier ∈ older,
        (∀ operation', ¬ Accepts earlier id stage operation') ∧ ∀ id' stage', ¬ Accepts earlier id' stage' operation) ∧
      ∀ id, Starts event id → ∀ earlier ∈ older, ¬ Starts earlier id) config.log ∧
    ∀ event ∈ config.log, ∀ row ∈ event.after.transfers, ∃ last ∈ config.state.transfers, last.handle = row.handle ∧
      ∀ stage, ∀ receipt ∈ (row.metadata.stage stage).receipt, (last.metadata.stage stage).receipt = some receipt := by
  refine ⟨((reached.fenced.and reached.regular).and reached.earned).mono ?_,fun event member row here => ?_⟩
  · rintro older event ⟨⟨fenced,regular⟩,earned⟩
    refine ⟨fun id stage operation => regular.succeeds earned,fun id stage operation accepts earlier member => ?_,fenced.inputs⟩
    exact ⟨fenced.stages id stage operation accepts earlier member,fenced.operations id stage operation accepts earlier member⟩
  · obtain ⟨last,there,later⟩ := (reached.onward member).later row here
    exact ⟨last,there,later.handle,later.stageReceipt⟩
end

/-! ### A run -/

/-- The digests of the bodies of the samples, as `sha256sum` prints them; every other body has a name of its own. -/
def sampleDigest (body : List UInt8) : String :=
  if body = [97,98,99] then "ba7816bf8f01cfea414140de5dae2223b00361a396177a9cb410ff61f20015ad"
  else if body = .replicate 16 0 then "374708fff7719dd5979ec875d56cd2286f6d3cf7ec317a3b25632aab28ec37bb"
  else String.ofList ('x' :: body.map fun byte => Char.ofNat byte.toNat)

/-- The digest of the samples. -/
abbrev Sha256.sample : Sha256 := ⟨sampleDigest⟩

section
attribute [local instance] Sha256.sample

/-- The calls one after the other, each to its end. -/
def inTurn (methods : List Method) : List (Interleaving.Move Request) :=
  (Request.tick (some 100) :: methods.map (.call "w" "c" .default)).flatMap fun request => [.start request,.finish 0]

/-- The configuration at the end of a schedule. -/
def ran (moves : List (Interleaving.Move Request)) : Config := Interleaving.play execute code (Db.empty "w" "c") moves

theorem ran_reached (moves : List (Interleaving.Move Request)) : Reached "w" "c" (ran moves) :=
  Interleaving.Reachable.play moves

def sampleSource : Grant := ⟨"w","c","sender","purse","grant-1"⟩
def sampleDestination : Grant := ⟨"w","c","receiver","till","grant-2"⟩

/-- The handle that the zero random bytes give. -/
def sampleHandle : String := "payload-374708fff7719dd5979ec875d56cd2286f6d3cf7ec317a3b25632aab28ec37bb"

/-- A native command that ended well, and one that was cancelled. -/
def cleanReceipt : NativeReceipt := ⟨some 0,none,false,false,true,true,false⟩
def cancelledReceipt : NativeReceipt := ⟨none,some 9,false,true,true,true,false⟩

/-- A payload of three bytes is prepared, captured and delivered. -/
def sampleDelivery : List Method :=
  [.prepare sampleSource sampleDestination "k" 4 (.replicate 16 0),
    .beginCapture sampleSource sampleHandle "send",
    .capture sampleSource sampleHandle "send" (.piece [97,98] (.piece [99] .ended))
      ⟨cleanReceipt,some ⟨3,sampleDigest [97,98,99]⟩⟩,
    .deliver sampleDestination sampleHandle]

/-- After the delivery both stages are asked for once more, the second time under the
    operation of the other stage, and a second receipt comes. -/
def fencedTwice : Config :=
  ran (inTurn (sampleDelivery ++
    [.beginCapture sampleSource sampleHandle "again",.beginReceive sampleDestination sampleHandle "send",
      .beginReceive sampleDestination sampleHandle "receive",.consume sampleDestination sampleHandle "receive" ⟨none,true⟩,
      .consume sampleDestination sampleHandle "receive" ⟨none,true⟩,.finishReceive sampleHandle "receive" cleanReceipt,
      .finishReceive sampleHandle "receive" cancelledReceipt]))

set_option maxRecDepth 100000 in
theorem fenced_at_most_once_fencedTwice :
    fencedTwice.log.filterMap (fun event => event.did.bind Statement.subject) = .replicate 8 sampleHandle ∧
    fencedTwice.state.transfers.rows.map (fun row => (row.metadata.source.operationId,row.metadata.receiver.operationId,
      row.metadata.receiver.receipt)) = [(some "send",some "receive",some cleanReceipt)] ∧
    Throughout (fun older event => ∀ id, Starts event id → ∀ earlier ∈ older, ¬ Starts earlier id) fencedTwice.log := by
  have seen : fencedTwice.log.filterMap (fun event => event.did.bind Statement.subject) = .replicate 8 sampleHandle ∧
    fencedTwice.state.transfers.rows.map (fun row => (row.metadata.source.operationId,row.metadata.receiver.operationId,
      row.metadata.receiver.receipt)) = [(some "send",some "receive",some cleanReceipt)] := by decide +kernel
  have reached : Reached "w" "c" fencedTwice := ran_reached _
  exact ⟨seen.1,seen.2,(fenced_at_most_once reached).1.mono fun _ _ fenced => fenced.2.2⟩
end

end Proofstorm.Custody
