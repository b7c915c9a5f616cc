import Proofstorm.Custody.Fences
import Proofstorm.Core.Utf8

/-!
The bytes of a transfer. What is ready has the digest of its manifest, the inbox of
a delivery has the same bytes, and a consumer is given these or is interrupted.
-/
namespace Proofstorm.Custody
open Proofstorm.Interleaving (Throughout)

section
variable [Sha256]

/-- The bodies of the transfer are as its record says. -/
structure Intact (db : Db) (row : TransferRow) : Prop where
  ready : row.metadata.capture = .ready → ∃ source size, (⟨sourceBody row.id,source⟩ : PayloadRow) ∈ db.payloads ∧
    size ≤ source.length ∧ row.metadata.bytes = some size ∧ row.metadata.sha256 = some (Sha256.digest (source.take size)) ∧
      row.metadata.sourceManifest = some ⟨size,Sha256.digest (source.take size)⟩
  delivered : row.metadata.delivered = true → row.metadata.capture.retired = false → ∃ source inbox size,
    (⟨sourceBody row.id,source⟩ : PayloadRow) ∈ db.payloads ∧ (⟨inboxBody row.id,inbox⟩ : PayloadRow) ∈ db.payloads ∧
      row.metadata.bytes = some size ∧ size ≤ source.length ∧ inbox.take size = source.take size

/-- The bytes are those of the source of the transfer wherever it is ready. -/
def Genuine (config : Config) (id : String) (written : List UInt8) : Prop :=
  ∀ event ∈ config.log, ∀ row ∈ event.after.transfers, row.handle = id → row.metadata.capture = .ready →
    row.metadata.bytes = some written.length ∧
      ∀ source, (⟨sourceBody row.id,source⟩ : PayloadRow) ∈ event.after.payloads → source.take written.length = written

theorem Sound.intact {db : Db} {row : TransferRow} (sound : Sound db) (member : row ∈ db.transfers) : Intact db row := by
  have own := sound.rows row member
  refine ⟨fun ready => ?_,fun delivered live => ?_⟩
  · have live : row.metadata.capture.retired = false := by rw [ready]; rfl
    obtain ⟨source,inbox,captured,_,facts⟩ := own.bodies live
    obtain ⟨size,fits,bytes,digest,manifest⟩ := facts.ready ready
    exact ⟨source,size,captured,fits,bytes,digest,manifest⟩
  · obtain ⟨source,inbox,captured,space,facts⟩ := own.bodies live
    obtain ⟨ready,equal⟩ := facts.delivered delivered
    obtain ⟨size,fits,bytes,_⟩ := facts.ready ready
    exact ⟨source,inbox,size,captured,space,bytes,fits,equal size bytes⟩

/-- What was written whole has the digest of the transfer, so it is what is ready, before and after. -/
theorem Reached.genuine {workspace cell : String} {config : Config} (reached : Reached workspace cell config)
    (injective : Function.Injective Sha256.digest) {grant : Grant} {id : String} {streamed : Vault.Streamed}
    {row : TransferRow} (member : row ∈ config.state.transfers) (consumed : Consumed grant id streamed row)
    (done : streamed.outcome = .ok ()) : Genuine config id streamed.written := by
  intro event there other here named ready
  obtain ⟨bytes,digest,_⟩ := consumed.whole done
  obtain ⟨last,held,later⟩ := (reached.onward there).later other here
  obtain rfl := row_unique held member (later.handle.trans (named.trans consumed.handle.symm))
  obtain ⟨source,size,captured,fits,sized,digested,_⟩ := ((reached.regular.all event there).after.intact here).ready ready
  have same : size = streamed.written.length := Option.some.inj ((later.bytes size sized).symm.trans bytes)
  have equal : source.take size = streamed.written :=
    injective (Option.some.inj ((later.sha256 _ digested).symm.trans digest))
  refine ⟨same ▸ sized,fun body stored => ?_⟩
  have one : (⟨sourceBody other.id,body⟩ : PayloadRow) = ⟨sourceBody other.id,source⟩ := Table.eq_of_key stored captured rfl
  cases one
  rw [← same]
  exact equal

/-- A stream that broke off with its interruption saved has its transfer marked. -/
theorem Regular.broken {event : Event} {workspace cell : String} {limits : Limits} {grant : Grant} {id operation : String}
    {writer : Writer} {written : List UInt8} (regular : Regular event)
    (earned : ∀ reply, event.reply = some reply → Counted event.request reply →
      ∃ statement, event.did = some statement ∧ Earned event.request statement)
    (asked : event.request = .call workspace cell limits (.consume grant id operation writer))
    (replied : event.reply = some (.ok (.streamed ⟨written,.error .delivery⟩))) :
    ∃ row ∈ event.after.transfers, row.handle = id ∧
      (row.metadata.receiver.interrupted = true ∨ row.metadata.receiver.receipt.isSome) := by
  obtain ⟨statement,did,t,rfl⟩ : ∃ statement, event.did = some statement ∧ ∃ t, statement = .save t := by
    have found := earned _ replied
    rw [asked] at found
    exact found ⟨written,rfl⟩
  obtain ⟨issues,_⟩ := regular.issued _ did _ _ _ _ asked
  rcases issues with ⟨_,_,wrong,_⟩ | ⟨_,same,named,marked⟩
  · cases wrong
  · cases same
    have effect := regular.effect _ did
    generalize event.before = before at effect
    generalize event.after = after at effect ⊢
    cases effect with
    | again _ _ repeats => cases repeats
    | save _ _ row member handle => exact ⟨_,replaced_mem _ member rfl,handle.trans named,marked⟩

/-- The bytes of a transfer. In every state of every run what is ready or delivered
    is intact. A consume that returns `Ok` has written the bytes of the source, and
    one that fails with `Delivery` after it began to stream leaves the receiver
    interrupted, or its receipt has arrived before. -/
theorem payload_bytes {workspace cell : String} {config : Config} (reached : Reached workspace cell config)
    (injective : Function.Injective Sha256.digest) :
    (∀ row ∈ config.state.transfers, Intact config.state row) ∧
    ∀ event ∈ config.log, ∀ workspace cell limits grant id operation writer written outcome,
      event.request = .call workspace cell limits (.consume grant id operation writer) →
      event.reply = some (.ok (.streamed ⟨written,outcome⟩)) →
        (outcome = .ok () → Genuine config id written) ∧
        (outcome = .error .delivery → ∃ row ∈ event.after.transfers, row.handle = id ∧
          (row.metadata.receiver.interrupted = true ∨ row.metadata.receiver.receipt.isSome)) := by
  refine ⟨fun row member => reached.kept.1.intact member,?_⟩
  intro event there workspace cell limits grant id operation writer written outcome asked replied
  have regular := reached.regular.all event there
  refine ⟨fun done => ?_,fun broke => ?_⟩
  · have promised := regular.promised _ replied
    rw [asked] at promised
    obtain ⟨row,member,consumed⟩ := promised
    obtain ⟨last,held,later⟩ := (reached.onward there).later row member
    exact reached.genuine injective held (consumed.later later) done
  · rw [broke] at replied
    exact regular.broken (reached.earned.all event there) asked replied
end

/-! ### Runs -/

section
attribute [local instance] Sha256.sample

/-- A consumer that takes one byte and fails. -/
def sampleConsume : Method := .consume sampleDestination sampleHandle "receive" ⟨some 1,true⟩

/-- The consumer fails, and before it is interrupted the runtime reports its receipt. -/
def receiptFirst : Config :=
  ran (inTurn (sampleDelivery ++ [.beginReceive sampleDestination sampleHandle "receive"]) ++
    [.start (.call "w" "c" .default sampleConsume),.perform 0,.perform 0,.perform 0,.perform 0,.perform 0,
      .start (.call "w" "c" .default (.finishReceive sampleHandle "receive" cancelledReceipt)),.finish 0,.finish 0])

/-- The consumer fails, and while it is being interrupted somebody observes the transfer. -/
def observedMeanwhile : Config :=
  ran (inTurn (sampleDelivery ++ [.beginReceive sampleDestination sampleHandle "receive"]) ++
    [.start (.call "w" "c" .default sampleConsume),.perform 0,.perform 0,.perform 0,.perform 0,.perform 0,.perform 0,
      .start (.call "w" "c" .default (.observe sampleSource sampleHandle "look")),.finish 0,.finish 0])

/-- Every consume that fails after it began to stream leaves the receiver interrupted. -/
def Interrupts (config : Config) : Prop :=
  ∀ event ∈ config.log, ∀ workspace cell limits grant id operation writer written error,
    event.request = .call workspace cell limits (.consume grant id operation writer) →
    event.reply = some (.ok (.streamed ⟨written,.error error⟩)) →
      ∃ row ∈ event.after.transfers, row.handle = id ∧ row.metadata.receiver.interrupted = true

theorem not_interrupts {config : Config} (error : Error)
    (seen : ∃ event ∈ config.log, event.request = .call "w" "c" .default sampleConsume ∧
      event.reply = some (.ok (.streamed ⟨[97],.error error⟩)) ∧
      ∀ row ∈ event.after.transfers.rows, row.metadata.receiver.interrupted = false) : ¬ Interrupts config := by
  intro interrupts
  obtain ⟨event,member,asked,replied,untouched⟩ := seen
  obtain ⟨row,held,_,interrupted⟩ := interrupts event member _ _ _ _ _ _ _ _ _ asked replied
  rw [untouched row held] at interrupted
  cases interrupted

set_option maxRecDepth 100000 in
/-- The receiver is not interrupted where its receipt came first, and not where the
    interruption could not be saved. -/
theorem consume_not_interrupted : (Reached "w" "c" receiptFirst ∧ ¬ Interrupts receiptFirst) ∧
    Reached "w" "c" observedMeanwhile ∧ ¬ Interrupts observedMeanwhile := by
  refine ⟨⟨ran_reached _,not_interrupts .delivery ?_⟩,ran_reached _,not_interrupts .conflict ?_⟩
  · decide +kernel
  · decide +kernel

theorem sampleDigest_known {body : List UInt8} (known : body = [97,98,99] ∨ body = .replicate 16 0) :
    (sampleDigest body).toList.head? ≠ some 'x' := by
  rcases known with rfl | rfl <;> decide +kernel

theorem sampleDigest_other {body : List UInt8} (other : ¬ (body = [97,98,99] ∨ body = .replicate 16 0)) :
    sampleDigest body = String.ofList ('x' :: body.map fun byte => Char.ofNat byte.toNat) := by
  rw [not_or] at other
  rw [sampleDigest,if_neg other.1,if_neg other.2]

/-- The digest of the samples has no collisions. -/
theorem sampleDigest_injective : Function.Injective sampleDigest := by
  have head : ∀ {body : List UInt8}, ¬ (body = [97,98,99] ∨ body = .replicate 16 0) →
      (sampleDigest body).toList.head? = some 'x' := by
    intro body other
    rw [sampleDigest_other other,String.toList_ofList]
    rfl
  intro a b same
  by_cases left : a = [97,98,99] ∨ a = .replicate 16 0
  · by_cases right : b = [97,98,99] ∨ b = .replicate 16 0
    · rcases left with rfl | rfl <;> rcases right with rfl | rfl
      · rfl
      · exact absurd same (by decide +kernel)
      · exact absurd same (by decide +kernel)
      · rfl
    · exact absurd (same ▸ head right) (sampleDigest_known left)
  · by_cases right : b = [97,98,99] ∨ b = .replicate 16 0
    · exact absurd (same ▸ head left) (sampleDigest_known right)
    · rw [sampleDigest_other left,sampleDigest_other right] at same
      exact Utf8.byteChar_injective.list_map (List.cons.inj (String.ofList_injective same)).2

/-- A payload is delivered and consumed whole. -/
def consumedWhole : Config :=
  ran (inTurn (sampleDelivery ++ [.beginReceive sampleDestination sampleHandle "receive",
    .consume sampleDestination sampleHandle "receive" ⟨none,true⟩]))

set_option maxRecDepth 100000 in
theorem payload_bytes_consumedWhole :
    (∃ row ∈ consumedWhole.state.transfers.rows, row.metadata.delivered = true ∧ Intact consumedWhole.state row) ∧
    Genuine consumedWhole sampleHandle [97,98,99] := by
  have seen : (∃ row ∈ consumedWhole.state.transfers.rows, row.metadata.delivered = true) ∧
      ∃ event ∈ consumedWhole.log, event.request = .call "w" "c" .default (.consume sampleDestination sampleHandle "receive" ⟨none,true⟩) ∧
        event.reply = some (.ok (.streamed ⟨[97,98,99],.ok ()⟩)) := by decide +kernel
  obtain ⟨⟨row,held,delivered⟩,event,member,asked,replied⟩ := seen
  obtain ⟨intact,consumed⟩ := payload_bytes (ran_reached _) sampleDigest_injective
  exact ⟨⟨row,held,delivered,intact row held⟩,(consumed event member _ _ _ _ _ _ _ _ _ asked replied).1 rfl⟩
end

end Proofstorm.Custody
