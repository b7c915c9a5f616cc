import Proofstorm.Custody.Fences

/-!
Custody of a transfer belongs to one recipient. Every commit has the identity that
the row asks for at that moment, the destination changes once, and what an earlier
destination still tries goes past the transfer (`Effect.elsewhere`).
-/
namespace Proofstorm.Custody
open Proofstorm.Interleaving (Throughout)
open Vault (Side)

/-- The side and the identity that a statement works for. -/
def Statement.authority : Statement → Option (Side × Grant × String)
  | .handoff source _ id => some (.source,source,id)
  | .beginCapture grant t _ | .stage grant _ t _ => some (.source,grant,t.id)
  | .deliver grant _ t | .beginReceive grant _ t _ | .consume grant _ t => some (.destination,grant,t.id)
  | .erase id _ grant => grant.map fun grant => (.source,grant,id)
  | .setClock _ | .prepare .. | .save _ | .close => none

/-- The identity that a method is called under. -/
def Method.identity : Method → Option Grant
  | .prepare source .. => some source
  | method => method.caller.map fun caller => caller.2.1

/-- The event gives the transfer another destination. -/
def Reassigns (event : Event) (id : String) : Prop :=
  ∃ row ∈ event.before.transfers, ∃ next ∈ event.after.transfers, row.handle = id ∧ next.handle = id ∧
    next.destination ≠ row.destination

section
variable [Sha256] {statement : Statement} {db after : Db} {row next : TransferRow}

/-! ### What a statement leaves alone -/

theorem Effect.elsewhere (effect : Effect statement db after) (sound : Sound db) (member : row ∈ db.transfers)
    (other : statement.subject ≠ some row.handle) : row ∈ after.transfers ∧
      ∀ body : PayloadRow, placeOf row.id body.id → (body ∈ after.payloads ↔ body ∈ db.payloads) := by
  have kept : ∀ {old next : TransferRow}, old ∈ db.transfers → old.handle = next.handle → next.handle ≠ row.handle →
      row ∈ (replaced next db).transfers :=
    fun there same different => (mem_replaced there same).mpr (.inr ⟨member,different.symm⟩)
  have apart : ∀ {old : TransferRow} {body : PayloadRow}, old ∈ db.transfers → old.handle ≠ row.handle →
      placeOf row.id body.id → ¬ placeOf old.id body.id :=
    fun there different mine place => different (congrArg TransferRow.handle (sound.places _ there row member (placeOf_apart place mine)))
  have written : ∀ {old : TransferRow} {place : Nat} {held bytes : List UInt8}, old ∈ db.transfers → old.handle ≠ row.handle →
      placeOf old.id place → (⟨place,held⟩ : PayloadRow) ∈ db.payloads →
        ∀ body : PayloadRow, placeOf row.id body.id → (body ∈ (setBody place bytes db).payloads ↔ body ∈ db.payloads) := by
    intro old place held bytes there different own stored body mine
    have elsewhere : body.id ≠ place := fun same => apart there different mine (same ▸ own)
    rw [mem_setBody ⟨held,stored⟩]
    constructor
    · rintro (rfl | ⟨here,_⟩)
      · exact absurd rfl elsewhere
      · exact here
    · exact fun here => .inr ⟨here,elsewhere⟩
  cases effect with
  | setClock => exact ⟨member,fun _ _ => Iff.rfl⟩
  | close => exact ⟨member,fun _ _ => Iff.rfl⟩
  | again => exact ⟨member,fun _ _ => Iff.rfl⟩
  | prepare limits source destination requestKey maximumBytes random _ index timestamp _ _ _ fresh =>
    refine ⟨Table.mem_insert_of_mem member,fun body mine => ?_⟩
    have elsewhere : body.id ≠ sourceBody index ∧ body.id ≠ inboxBody index := by
      have less := fresh row member
      simp only [placeOf,sourceBody,inboxBody] at mine ⊢
      omega
    rw [Table.mem_insert,Table.mem_insert]
    constructor
    · rintro ((here | ⟨rfl,_⟩) | ⟨rfl,_⟩)
      · exact here
      · exact absurd rfl elsewhere.1
      · exact absurd rfl elsewhere.2
    · exact fun here => .inl (.inl here)
  | handoff source destination id _ old there named =>
    have different : old.handle ≠ row.handle := fun same => other (congrArg some (named.symm.trans same))
    exact ⟨kept there rfl different,fun _ _ => Iff.rfl⟩
  | beginCapture grant t operation _ old there named =>
    have different : old.handle ≠ row.handle := fun same => other (congrArg some (named.symm.trans same))
    exact ⟨kept there rfl different,fun _ _ => Iff.rfl⟩
  | save t _ old there named =>
    have different : old.handle ≠ row.handle := fun same => other (congrArg some (named.symm.trans same))
    exact ⟨kept there rfl different,fun _ _ => Iff.rfl⟩
  | stage grant index t reader _ old body read there named _ _ held =>
    have different : old.handle ≠ row.handle := fun same => other (congrArg some (named.symm.trans same))
    exact ⟨kept there rfl different,written there different (.inl rfl) held⟩
  | deliver grant index t _ old source inbox size there named _ _ _ _ _ space =>
    have different : old.handle ≠ row.handle := fun same => other (congrArg some (named.symm.trans same))
    exact ⟨kept there rfl different,written there different (.inr rfl) space⟩
  | beginReceive grant index t operation _ old there named =>
    have different : old.handle ≠ row.handle := fun same => other (congrArg some (named.symm.trans same))
    exact ⟨kept there rfl different,fun _ _ => Iff.rfl⟩
  | consume grant index t _ old there named =>
    have different : old.handle ≠ row.handle := fun same => other (congrArg some (named.symm.trans same))
    exact ⟨kept there rfl different,fun _ _ => Iff.rfl⟩
  | erase id phase grant _ old there named =>
    have different : old.handle ≠ row.handle := fun same => other (congrArg some (named.symm.trans same))
    refine ⟨kept there rfl different,fun body mine => ?_⟩
    rw [Table.mem_delete]
    exact ⟨fun both => both.1,fun here => ⟨here,apart there different mine⟩⟩

variable {limits : Limits} {method : Method} {side : Side} {id cell : String} {config : Config}

omit [Sha256] in
/-- A statement of a method that asks for an identity is about the transfer of the method. -/
theorem issues_subject {grant : Grant}
    (issues : Issues limits method statement) (caller : method.caller = some (side,grant,id)) : statement.subject = some id := by
  cases method with
  | handoff =>
    cases caller
    rw [issues]
    rfl
  | status => exact issues.elim
  | beginCapture =>
    cases caller
    obtain ⟨t,rfl,rfl⟩ := issues
    rfl
  | capture =>
    cases caller
    rcases issues with ⟨t,rfl,rfl,_⟩ | ⟨index,t,rfl,rfl⟩ <;> rfl
  | deliver =>
    cases caller
    obtain ⟨index,t,rfl,rfl⟩ := issues
    rfl
  | beginReceive =>
    cases caller
    obtain ⟨index,t,rfl,rfl⟩ := issues
    rfl
  | consume =>
    cases caller
    rcases issues with ⟨index,t,rfl,rfl⟩ | ⟨t,rfl,rfl,_⟩ <;> rfl
  | observe =>
    cases caller
    obtain ⟨t,rfl,rfl⟩ := issues
    rfl
  | release =>
    cases caller
    rw [issues]
    rfl
  | _ => cases caller

omit [Sha256] in
/-- What a statement works for is what its method was called for. -/
theorem issues_authority {grant : Grant}
    (issues : Issues limits method statement) (authority : statement.authority = some (side,grant,id)) :
    method.caller = some (side,grant,id) := by
  cases method with
  | prepare =>
    obtain ⟨_,rfl⟩ := issues
    cases authority
  | handoff =>
    rw [issues] at authority
    exact authority
  | status => exact issues.elim
  | beginCapture =>
    obtain ⟨t,rfl,rfl⟩ := issues
    exact authority
  | capture =>
    rcases issues with ⟨t,rfl,rfl,_⟩ | ⟨index,t,rfl,rfl⟩
    · cases authority
    · exact authority
  | deliver =>
    obtain ⟨index,t,rfl,rfl⟩ := issues
    exact authority
  | beginReceive =>
    obtain ⟨index,t,rfl,rfl⟩ := issues
    exact authority
  | consume =>
    rcases issues with ⟨index,t,rfl,rfl⟩ | ⟨t,rfl,rfl,_⟩
    · exact authority
    · cases authority
  | release =>
    rw [issues] at authority
    exact authority
  | expire =>
    rcases issues with ⟨t,rfl⟩ | ⟨id,rfl⟩ <;> cases authority
  | close =>
    rcases issues with rfl | ⟨t,rfl⟩ | ⟨id,rfl⟩ <;> cases authority
  | _ =>
    obtain ⟨t,rfl,_⟩ := issues
    cases authority

/-! ### Runs of the vault -/

/-- A transfer that was given another destination has its recipient. -/
def Handed (log : List Event) (db : Db) : Prop :=
  ∀ event ∈ log, ∀ id, Reassigns event id → ∃ row ∈ db.transfers, row.handle = id ∧ row.metadata.recipient.isSome

omit [Sha256] in
/-- Where the destination changes, nobody had been given the transfer, nothing was delivered and no receive had begun. -/
theorem Later.reassigned (later : Later row next) (differs : next.destination ≠ row.destination) :
    row.metadata.recipient = none ∧ row.metadata.delivered = false ∧ row.metadata.receiver.operationId = none ∧
      next.metadata.recipient.isSome := by
  have loose : ¬ (row.metadata.recipient.isSome ∨ row.metadata.delivered = true ∨ row.metadata.receiver.operationId.isSome) :=
    fun fixed => differs (later.fixed fixed)
  simp only [not_or,Bool.not_eq_true,Option.isSome_eq_false_iff,Option.isNone_iff_eq_none] at loose
  exact ⟨loose.1,loose.2.1,loose.2.2,later.handed differs⟩

theorem Handed.cons {log : List Event} {event : Event} (handed : Handed log event.before) (regular : Regular event) :
    Handed (event :: log) event.after := by
  intro seen member id reassigns
  rcases List.mem_cons.mp member with rfl | earlier
  · obtain ⟨row,held,next,there,rfl,named,differs⟩ := reassigns
    exact ⟨next,there,named,((regular.follows.row held there named).reassigned differs).2.2.2⟩
  · obtain ⟨row,held,named,known⟩ := handed seen earlier id reassigns
    obtain ⟨next,there,later⟩ := regular.follows.later row held
    obtain ⟨recipient,known⟩ := Option.isSome_iff_exists.mp known
    exact ⟨next,there,later.handle.trans named,Option.isSome_iff_exists.mpr ⟨recipient,later.recipient recipient known⟩⟩

theorem Reached.handed {workspace : String} (reached : Reached workspace cell config) :
    Throughout (fun older event => ∀ id, Reassigns event id → ∀ earlier ∈ older, ¬ Reassigns earlier id) config.log := by
  have first : Handed [] (Db.empty workspace cell) := fun _ member => absurd member List.not_mem_nil
  have step : ∀ older event, Handed older event.before → Regular event → Handed (event :: older) event.after ∧
      ∀ id, Reassigns event id → ∀ earlier ∈ older, ¬ Reassigns earlier id := by
    intro older event handed regular
    refine ⟨handed.cons regular,fun id reassigns earlier member before => ?_⟩
    obtain ⟨row,held,next,there,rfl,named,differs⟩ := reassigns
    obtain ⟨other,here,same,known⟩ := handed earlier member _ before
    obtain rfl := row_unique here held same
    rw [((regular.follows.row here there named).reassigned differs).1] at known
    cases known
  exact (reached.linked.induction reached.regular first step).2

/-- An event of a call under the identity does nothing to the transfer and gives none of its bytes away. -/
def Bystands (identity : Grant) (id : String) (event : Event) : Prop :=
  ∀ workspace cell limits method, event.request = .call workspace cell limits method → method.identity = some identity →
    (∀ row ∈ event.before.transfers, row.handle = id → row ∈ event.after.transfers ∧
      ∀ body : PayloadRow, placeOf row.id body.id → (body ∈ event.after.payloads ↔ body ∈ event.before.payloads)) ∧
    ∀ grant operation writer streamed, method = .consume grant id operation writer →
      event.reply ≠ some (.ok (.streamed streamed))

/-- Whoever is neither the source nor the destination of a transfer stands by. -/
theorem Regular.bystands {event : Event} {identity : Grant} (regular : Regular event)
    (stranger : ∀ row ∈ event.before.transfers, row.handle = id → row.source ≠ identity ∧ row.destination ≠ identity)
    (still : ∀ row ∈ event.after.transfers, row.handle = id → row.destination ≠ identity) : Bystands identity id event := by
  intro workspace cell limits method asked presented
  refine ⟨fun row member named => ?_,fun grant operation writer streamed same replied => ?_⟩
  · cases did : event.did with
    | none =>
      rw [regular.still did]
      exact ⟨member,fun _ _ => Iff.rfl⟩
    | some statement =>
      obtain ⟨issues,authorized⟩ := regular.issued statement did _ _ _ _ asked
      refine (regular.effect statement did).elsewhere regular.before member fun subject => ?_
      cases called : method.caller with
      | none =>
        cases method with
        | prepare =>
          obtain ⟨_,rfl⟩ := issues
          cases subject
        | _ => simp [Method.identity,called] at presented
      | some caller =>
        obtain ⟨side,grant,target⟩ := caller
        have mine : grant = identity := by
          cases method with
          | prepare => cases called
          | _ => simpa [Method.identity,called] using presented
        have target_ : target = row.handle := Option.some.inj ((issues_subject issues called).symm.trans subject)
        obtain ⟨other,there,handle,allows⟩ := authorized side grant target called
        obtain rfl := row_unique there member (handle.trans target_)
        obtain ⟨notSource,notDestination⟩ := stranger other there named
        rw [mine] at allows
        cases side with
        | destination => exact notDestination allows
        | source => exact notSource allows
        | either => exact allows.elim notSource notDestination
  · have promised := regular.promised _ replied
    rw [asked,same] at promised
    obtain ⟨row,there,consumed⟩ := promised
    have mine : grant = identity := by
      rw [same] at presented
      exact Option.some.inj presented
    exact still row there consumed.handle (consumed.owner.trans mine)

/-- Between two events of a run the rows move forward. -/
theorem Reached.between {workspace : String} (reached : Reached workspace cell config)
    {newer older : List Event} {event later : Event} (split : config.log = newer ++ event :: older) (member : later ∈ newer) :
    Follows event.after later.before := by
  obtain ⟨last,middle,rfl⟩ := List.append_of_mem member
  have steps : ∀ seen ∈ middle, Follows seen.before seen.after := by
    intro seen here
    refine (reached.regular.all seen ?_).follows
    rw [split]
    exact List.mem_append_left _ (List.mem_append_right _ (List.mem_cons_of_mem _ here))
  have linked := reached.linked
  rw [split,List.append_assoc] at linked
  exact Follows.of_steps (linked.until.across steps)

/-- Transfers only move forward: what the vault held after any event of a run is there
    in a later form before every event that follows it, and at the end, and the vault
    is sound after each. -/
theorem transfers_move_forward {workspace : String} (reached : Reached workspace cell config) :
    Sound config.state ∧ ∀ newer event older, config.log = newer ++ event :: older → Sound event.after ∧
      Follows event.after config.state ∧ ∀ later ∈ newer, Follows event.after later.before := by
  refine ⟨reached.kept.1,fun newer event older split => ?_⟩
  have member : event ∈ config.log := split ▸ List.mem_append_right _ List.mem_cons_self
  exact ⟨(reached.kept.2.all event member).2.1,reached.onward member,fun _ => reached.between split⟩

/-- After the handoff the destination that a transfer had before stands by. -/
theorem Reached.previous_bystands {workspace : String} (reached : Reached workspace cell config)
    {newer older : List Event} {event later : Event} (split : config.log = newer ++ event :: older)
    (member : row ∈ event.before.transfers) (there : next ∈ event.after.transfers) (named : next.handle = row.handle)
    (differs : next.destination ≠ row.destination) (after : later ∈ newer) : Bystands row.destination row.handle later := by
  have here : event ∈ config.log := by
    rw [split]
    exact List.mem_append_right _ List.mem_cons_self
  have then_ : later ∈ config.log := by
    rw [split]
    exact List.mem_append_left _ after
  have regular := reached.regular.all event here
  have onward := reached.between split after
  have moved := regular.follows.row member there named
  -- The two sides of a transfer have different wallets, so the earlier destination is not the source.
  have apart : row.source ≠ row.destination := fun same =>
    (regular.before.rows row member).apart (congrArg Grant.wallet same)
  have gone : ∀ {other : TransferRow}, Later next other → other.source ≠ row.destination ∧ other.destination ≠ row.destination := by
    intro other later
    rw [later.source,moved.source,later.fixed (.inl (moved.handed differs))]
    exact ⟨apart,differs⟩
  refine (reached.regular.all later then_).bystands (fun other held same => ?_) fun other held same => ?_
  · exact gone (onward.row there held (same.trans named.symm))
  · exact (gone ((onward.trans (reached.regular.all later then_).follows).row there held (same.trans named.symm))).2

/-- Custody of a transfer belongs to one recipient, in every run of any calls. What
    captures, hands off or releases has the identity of the source, and what delivers,
    receives or consumes has the identity that is the destination at the commit. The
    destination changes once, before anything is delivered or received, and after that
    the earlier one changes nothing and reads nothing. -/
theorem custody_of_one_recipient {workspace cell : String} {config : Config} (reached : Reached workspace cell config) :
    Throughout (fun older event =>
      (∀ statement side grant id, event.did = some statement → statement.authority = some (side,grant,id) →
        (∃ workspace cell limits method, event.request = .call workspace cell limits method ∧
          method.caller = some (side,grant,id)) ∧
        ∃ row ∈ event.before.transfers, row.handle = id ∧ side.allows grant row) ∧
      (∀ workspace cell limits method side grant id, event.request = .call workspace cell limits method →
        method.caller = some (side,grant,id) → event.did.isSome →
          ∃ row ∈ event.before.transfers, row.handle = id ∧ side.allows grant row) ∧
      ∀ row ∈ event.before.transfers, ∀ next ∈ event.after.transfers, next.handle = row.handle →
        next.destination ≠ row.destination → row.metadata.delivered = false ∧ row.metadata.receiver.operationId = none ∧
          ∀ earlier ∈ older, ¬ Reassigns earlier row.handle) config.log ∧
    ∀ newer event older, config.log = newer ++ event :: older → ∀ row ∈ event.before.transfers,
      ∀ next ∈ event.after.transfers, next.handle = row.handle → next.destination ≠ row.destination →
        ∀ later ∈ newer, Bystands row.destination row.handle later := by
  refine ⟨(reached.handed.and reached.regular).mono ?_,fun newer event older split row member next there named differs later after =>
    reached.previous_bystands split member there named differs after⟩
  rintro older event ⟨handed,regular⟩
  refine ⟨fun statement side grant id did authority => ?_,fun workspace cell limits method side grant id asked caller did => ?_,
    fun row member next there named differs => ?_⟩
  · cases asked : event.request with
    | tick clock =>
      rw [regular.ticks clock asked statement did] at authority
      cases authority
    | call workspace cell limits method =>
      obtain ⟨issues,authorized⟩ := regular.issued statement did _ _ _ _ asked
      have caller := issues_authority issues authority
      exact ⟨⟨workspace,cell,limits,method,rfl,caller⟩,authorized side grant id caller⟩
  · obtain ⟨statement,did⟩ := Option.isSome_iff_exists.mp did
    exact (regular.issued statement did _ _ _ _ asked).2 side grant id caller
  · obtain ⟨_,undelivered,unread,_⟩ := (regular.follows.row member there named).reassigned differs
    exact ⟨undelivered,unread,handed row.handle ⟨row,member,next,there,rfl,named,differs⟩⟩
end

/-! ### A run -/

section
attribute [local instance] Sha256.sample

def sampleRecipient : Grant := ⟨"w","c","agent","till","grant-3"⟩

/-- A captured payload is handed off; the destination it was prepared for tries to
    deliver, observe and consume it, and then the recipient has it delivered. -/
def handedOver : Config :=
  ran (inTurn (sampleDelivery.dropLast ++ [.handoff sampleSource sampleRecipient sampleHandle,
    .deliver sampleDestination sampleHandle,.observe sampleDestination sampleHandle "look",
    .consume sampleDestination sampleHandle "receive" ⟨none,true⟩,.deliver sampleRecipient sampleHandle]))

set_option maxRecDepth 100000 in
theorem custody_of_one_recipient_handedOver :
    handedOver.state.transfers.rows.map (fun row => (row.destination,row.metadata.delivered)) = [(sampleRecipient,true)] ∧
    ∀ later ∈ handedOver.log.take 10, Bystands sampleDestination sampleHandle later := by
  have seen : handedOver.state.transfers.rows.map (fun row => (row.destination,row.metadata.delivered)) =
        [(sampleRecipient,true)] ∧
      ∃ event, handedOver.log[10]? = some event ∧
        (∃ row ∈ event.before.transfers.rows, row.handle = sampleHandle ∧ row.destination = sampleDestination) ∧
        ∃ next ∈ event.after.transfers.rows, next.handle = sampleHandle ∧ next.destination = sampleRecipient := by
    refine ⟨by decide +kernel,_,rfl,?_⟩
    decide +kernel
  obtain ⟨ends,event,found,⟨row,member,named,was⟩,next,there,same,is⟩ := seen
  obtain ⟨bound,rfl⟩ := List.getElem?_eq_some_iff.mp found
  have split : handedOver.log = handedOver.log.take 10 ++ handedOver.log[10] :: handedOver.log.drop 11 := by
    rw [← List.drop_eq_getElem_cons bound,List.take_append_drop]
  have reached : Reached "w" "c" handedOver := ran_reached _
  refine ⟨ends,fun later after => ?_⟩
  have bystands := (custody_of_one_recipient reached).2 _ _ _ split row member next there (same.trans named.symm)
    (by rw [was,is]; decide) later after
  rw [was,named] at bystands
  exact bystands

theorem transfers_move_forward_handedOver : handedOver.state.transfers.rows.map TransferRow.handle = [sampleHandle] ∧
    ∀ event ∈ handedOver.log, Follows event.after handedOver.state := by
  have reached : Reached "w" "c" handedOver := ran_reached _
  refine ⟨by decide +kernel,fun event member => ?_⟩
  obtain ⟨newer,older,split⟩ := List.append_of_mem member
  exact ((transfers_move_forward reached).2 newer event older split).2.1
end

end Proofstorm.Custody
