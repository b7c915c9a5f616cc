import Proofstorm.Custody.Effects

/-!
What holds of every vault. A transfer that is not retired has its two bodies, and
they are as its record says (`Bodies`, `RowSound`, `Sound`); a row only moves
forward (`Later`). Each effect keeps the first and is a step of the second
(`Effect.follows`).
-/
namespace Proofstorm.Custody

variable [Sha256]

/-! ### Rows and their bodies -/

/-- The source body and the inbox of a transfer that is not retired. -/
structure Bodies (row : TransferRow) (source inbox : List UInt8) : Prop where
  sourceLength : source.length = row.metadata.maximumBytes
  inboxLength : inbox.length = row.metadata.maximumBytes
  ready : row.metadata.capture = .ready → ∃ size, size ≤ source.length ∧ row.metadata.bytes = some size ∧
    row.metadata.sha256 = some (Sha256.digest (source.take size)) ∧
    row.metadata.sourceManifest = some ⟨size,Sha256.digest (source.take size)⟩
  delivered : row.metadata.delivered = true → row.metadata.capture = .ready ∧
    ∀ size ∈ row.metadata.bytes, inbox.take size = source.take size

/-- What holds of a row of the transfers. -/
structure RowSound (payloads : Table PayloadRow) (row : TransferRow) : Prop where
  named : row.metadata.id = row.handle
  wallet : row.metadata.destinationWallet = row.destination.wallet
  apart : row.source.wallet ≠ row.destination.wallet
  positive : 0 < row.metadata.maximumBytes
  erased : row.metadata.capture.retired = true → row.capacity = 0
  reserved : row.metadata.capture.retired = false → row.capacity = row.metadata.maximumBytes * 2
  bodies : row.metadata.capture.retired = false → ∃ source inbox, (⟨sourceBody row.id,source⟩ : PayloadRow) ∈ payloads ∧
    (⟨inboxBody row.id,inbox⟩ : PayloadRow) ∈ payloads ∧ Bodies row source inbox
  unclaimed : row.metadata.capture = .reserved → row.metadata.source.operationId = none
  blank : row.metadata.capture = .reserved ∨ row.metadata.capture = .started →
    row.metadata.bytes = none ∧ row.metadata.sha256 = none
  received : row.metadata.receiver.operationId.isSome → row.metadata.delivered = true

/-- The place is one of the two of a transfer. -/
def placeOf (index place : Nat) : Prop := place = sourceBody index ∨ place = inboxBody index

structure Sound (db : Db) : Prop where
  rows : ∀ row ∈ db.transfers, RowSound db.payloads row
  places : ∀ a ∈ db.transfers, ∀ b ∈ db.transfers, a.id = b.id → a = b
  owned : ∀ body ∈ db.payloads, ∃ row ∈ db.transfers, row.metadata.capture.retired = false ∧ placeOf row.id body.id

/-! ### A row moves forward -/

/-- `Later row next`: what a row has become, or can become. -/
structure Later (row next : TransferRow) : Prop where
  handle : next.handle = row.handle
  id : next.id = row.id
  source : next.source = row.source
  maximum : next.metadata.maximumBytes = row.metadata.maximumBytes
  age : row.metadata.revision ≤ next.metadata.revision
  same : next.metadata.revision = row.metadata.revision → next.metadata = row.metadata ∧ next.destination = row.destination
  begun : row.metadata.capture ≠ .reserved → next.metadata.capture ≠ .reserved
  retired : row.metadata.capture.retired = true → next.metadata.capture.retired = true
  sourceOperation : ∀ operation ∈ row.metadata.source.operationId, next.metadata.source.operationId = some operation
  receiverOperation : ∀ operation ∈ row.metadata.receiver.operationId, next.metadata.receiver.operationId = some operation
  sourceReceipt : ∀ receipt ∈ row.metadata.source.receipt, next.metadata.source.receipt = some receipt
  receiverReceipt : ∀ receipt ∈ row.metadata.receiver.receipt, next.metadata.receiver.receipt = some receipt
  inputStarted : row.metadata.receiver.inputStarted = true → next.metadata.receiver.inputStarted = true
  interrupted : row.metadata.receiver.interrupted = true → next.metadata.receiver.interrupted = true
  bytes : ∀ size ∈ row.metadata.bytes, next.metadata.bytes = some size
  sha256 : ∀ digest ∈ row.metadata.sha256, next.metadata.sha256 = some digest
  manifest : ∀ manifest ∈ row.metadata.sourceManifest, next.metadata.sourceManifest = some manifest
  delivered : row.metadata.delivered = true → next.metadata.delivered = true
  recipient : ∀ recipient ∈ row.metadata.recipient, next.metadata.recipient = some recipient
  fixed : row.metadata.recipient.isSome ∨ row.metadata.delivered = true ∨ row.metadata.receiver.operationId.isSome →
    next.destination = row.destination
  handed : next.destination ≠ row.destination → next.metadata.recipient.isSome

omit [Sha256] in
theorem Later.refl (row : TransferRow) : Later row row where
  handle := rfl
  id := rfl
  source := rfl
  maximum := rfl
  age := Nat.le_refl _
  same := fun _ => ⟨rfl,rfl⟩
  begun := fun holds => holds
  retired := fun holds => holds
  sourceOperation := fun _ holds => holds
  receiverOperation := fun _ holds => holds
  sourceReceipt := fun _ holds => holds
  receiverReceipt := fun _ holds => holds
  inputStarted := fun holds => holds
  interrupted := fun holds => holds
  bytes := fun _ holds => holds
  sha256 := fun _ holds => holds
  manifest := fun _ holds => holds
  delivered := fun holds => holds
  recipient := fun _ holds => holds
  fixed := fun _ => rfl
  handed := fun differs => absurd rfl differs

omit [Sha256] in
theorem Later.trans {row next last : TransferRow} (first : Later row next) (second : Later next last) : Later row last where
  handle := second.handle.trans first.handle
  id := second.id.trans first.id
  source := second.source.trans first.source
  maximum := second.maximum.trans first.maximum
  age := Nat.le_trans first.age second.age
  same := fun equal => by
    have one := first.age
    have two := second.age
    obtain ⟨record,destination⟩ := second.same (by omega)
    obtain ⟨earlier,recipient⟩ := first.same (by omega)
    exact ⟨record.trans earlier,destination.trans recipient⟩
  begun := fun holds => second.begun (first.begun holds)
  retired := fun holds => second.retired (first.retired holds)
  sourceOperation := fun operation holds => second.sourceOperation operation (first.sourceOperation operation holds)
  receiverOperation := fun operation holds => second.receiverOperation operation (first.receiverOperation operation holds)
  sourceReceipt := fun receipt holds => second.sourceReceipt receipt (first.sourceReceipt receipt holds)
  receiverReceipt := fun receipt holds => second.receiverReceipt receipt (first.receiverReceipt receipt holds)
  inputStarted := fun holds => second.inputStarted (first.inputStarted holds)
  interrupted := fun holds => second.interrupted (first.interrupted holds)
  bytes := fun size holds => second.bytes size (first.bytes size holds)
  sha256 := fun digest holds => second.sha256 digest (first.sha256 digest holds)
  manifest := fun manifest holds => second.manifest manifest (first.manifest manifest holds)
  delivered := fun holds => second.delivered (first.delivered holds)
  recipient := fun recipient holds => second.recipient recipient (first.recipient recipient holds)
  fixed := fun holds => by
    refine (second.fixed ?_).trans (first.fixed holds)
    rcases holds with known | delivered | accepted
    · obtain ⟨recipient,known⟩ := Option.isSome_iff_exists.mp known
      exact .inl (Option.isSome_iff_exists.mpr ⟨recipient,first.recipient recipient known⟩)
    · exact .inr (.inl (first.delivered delivered))
    · obtain ⟨operation,accepted⟩ := Option.isSome_iff_exists.mp accepted
      exact .inr (.inr (Option.isSome_iff_exists.mpr ⟨operation,first.receiverOperation operation accepted⟩))
  handed := fun differs => by
    by_cases same : last.destination = next.destination
    · obtain ⟨recipient,known⟩ := Option.isSome_iff_exists.mp (first.handed (same ▸ differs))
      exact Option.isSome_iff_exists.mpr ⟨recipient,second.recipient recipient known⟩
    · exact second.handed same

/-- What the steps of all calls may do to a vault. -/
structure Follows (db after : Db) : Prop where
  later : ∀ row ∈ db.transfers, ∃ next ∈ after.transfers, Later row next
  closed : db.closed = true → after.closed = true
  last : db.closed = true → ∀ next ∈ after.transfers, ∃ row ∈ db.transfers, row.handle = next.handle
  sound : Sound db → Sound after

theorem Follows.refl (db : Db) : Follows db db :=
  ⟨fun row member => ⟨row,member,.refl row⟩,fun holds => holds,fun _ next member => ⟨next,member,rfl⟩,fun sound => sound⟩

theorem Follows.trans {db middle after : Db} (first : Follows db middle) (second : Follows middle after) : Follows db after where
  later := fun row member => by
    obtain ⟨next,there,later⟩ := first.later row member
    obtain ⟨last,here,more⟩ := second.later next there
    exact ⟨last,here,later.trans more⟩
  closed := fun closed => second.closed (first.closed closed)
  last := fun closed next member => by
    obtain ⟨middle,there,same⟩ := second.last (first.closed closed) next member
    obtain ⟨row,here,alike⟩ := first.last closed middle there
    exact ⟨row,here,alike.trans same⟩
  sound := fun sound => second.sound (first.sound sound)

theorem Follows.of_steps {db after : Db} (steps : Relation.ReflTransGen Follows db after) : Follows db after := by
  induction steps with
  | refl => exact .refl db
  | tail _ step ih => exact ih.trans step

/-- The row of a handle, where it was known before. -/
theorem Follows.row {db after : Db} {row next : TransferRow} (follows : Follows db after) (member : row ∈ db.transfers)
    (there : next ∈ after.transfers) (same : next.handle = row.handle) : Later row next := by
  obtain ⟨other,here,later⟩ := follows.later row member
  exact row_unique there here (same.trans later.handle.symm) ▸ later

/-! ### One row is replaced -/

section
variable {db : Db} {row next : TransferRow} {payloads : Table PayloadRow}

omit [Sha256] in
theorem placeOf_apart {a b place : Nat} (first : placeOf a place) (second : placeOf b place) : a = b := by
  simp only [placeOf,sourceBody,inboxBody] at first second
  omega

/-- The bodies of a row count, and no others. -/
theorem RowSound.congr {before : Table PayloadRow} (sound : RowSound before row)
    (same : ∀ body : PayloadRow, placeOf row.id body.id → body ∈ before → body ∈ payloads) : RowSound payloads row := by
  obtain ⟨named,wallet,apart,positive,erased,reserved,bodies,unclaimed,blank,received⟩ := sound
  refine ⟨named,wallet,apart,positive,erased,reserved,fun live => ?_,unclaimed,blank,received⟩
  obtain ⟨source,inbox,captured,space,facts⟩ := bodies live
  exact ⟨source,inbox,same _ (.inl rfl) captured,same _ (.inr rfl) space,facts⟩

/-- One row and its bodies are replaced. -/
theorem Sound.replaced (sound : Sound db) (member : row ∈ db.transfers) (handle : next.handle = row.handle)
    (id : next.id = row.id) (own : RowSound payloads next)
    (elsewhere : ∀ body : PayloadRow, ¬ placeOf row.id body.id → (body ∈ payloads ↔ body ∈ db.payloads))
    (live : ∀ body ∈ payloads, placeOf row.id body.id → next.metadata.capture.retired = false) :
    Sound { Custody.replaced next db with payloads := payloads } := by
  have rows : ∀ other, other ∈ (Custody.replaced next db).transfers ↔
      other = next ∨ other ∈ db.transfers ∧ other.handle ≠ next.handle := fun _ => mem_replaced member handle.symm
  have apart : ∀ other ∈ db.transfers, other.handle ≠ next.handle → other.id ≠ row.id := by
    intro other there different same
    rw [handle,sound.places other there row member same] at different
    exact different rfl
  refine ⟨fun other there => ?_,fun a first b second same => ?_,fun body held => ?_⟩
  · rcases (rows other).mp there with rfl | ⟨there,different⟩
    · exact own
    · refine (sound.rows other there).congr fun body place held => (elsewhere body fun mine => ?_).mpr held
      exact apart other there different (placeOf_apart place mine)
  · rcases (rows a).mp first with one | ⟨left,different⟩
    · rcases (rows b).mp second with two | ⟨right,different⟩
      · exact one.trans two.symm
      · exact absurd (same.symm.trans (one ▸ id)) (apart b right different)
    · rcases (rows b).mp second with two | ⟨right,_⟩
      · exact absurd (same.trans (two ▸ id)) (apart a left different)
      · exact sound.places a left b right same
  · by_cases mine : placeOf row.id body.id
    · exact ⟨next,replaced_mem next member handle.symm,live body held mine,id ▸ mine⟩
    · obtain ⟨other,there,alive,place⟩ := sound.owned body ((elsewhere body mine).mp held)
      refine ⟨other,(rows other).mpr (.inr ⟨there,fun alike => ?_⟩),alive,place⟩
      rw [row_unique there member (alike.trans handle)] at place
      exact mine place

/-- The bodies stay as they are. -/
theorem Sound.replaced_record (sound : Sound db) (member : row ∈ db.transfers) (handle : next.handle = row.handle)
    (id : next.id = row.id) (own : RowSound db.payloads next)
    (live : row.metadata.capture.retired = false → next.metadata.capture.retired = false) :
    Sound (Custody.replaced next db) := by
  refine sound.replaced member handle id own (fun _ _ => Iff.rfl) fun body held mine => ?_
  obtain ⟨other,there,alive,place⟩ := sound.owned body held
  rw [sound.places other there row member (placeOf_apart place mine)] at alive
  exact live alive

theorem Follows.of_row {after : Db} (member : row ∈ db.transfers) (later : Later row next)
    (rows : after.transfers = (Custody.replaced next db).transfers) (closed : after.closed = db.closed)
    (sound : Sound db → Sound after) : Follows db after := by
  refine ⟨fun other there => ?_,fun shut => closed.trans shut,fun _ other there => ?_,sound⟩
  · rw [rows]
    by_cases same : other.handle = row.handle
    · rw [row_unique there member same]
      exact ⟨next,replaced_mem next member later.handle.symm,later⟩
    · refine ⟨other,(mem_replaced member later.handle.symm).mpr (.inr ⟨there,fun alike => ?_⟩),.refl other⟩
      exact same (alike.trans later.handle)
  · rw [rows] at there
    rcases (mem_replaced member later.handle.symm).mp there with rfl | ⟨there,_⟩
    · exact ⟨row,member,later.handle.symm⟩
    · exact ⟨other,there,rfl⟩
end

/-! ### The effects -/

/-- What no edit of a record changes. -/
structure Edited (old next : Transfer) : Prop where
  id : next.id = old.id
  wallet : next.destinationWallet = old.destinationWallet
  maximum : next.maximumBytes = old.maximumBytes
  bytes : next.bytes = old.bytes
  sha256 : next.sha256 = old.sha256
  delivered : next.delivered = old.delivered
  recipient : next.recipient = old.recipient
  sourceOperation : next.source.operationId = old.source.operationId
  receiverOperation : next.receiver.operationId = old.receiver.operationId
  inputStarted : next.receiver.inputStarted = old.receiver.inputStarted
  interrupted : old.receiver.interrupted = true → next.receiver.interrupted = true
  sourceReceipt : ∀ receipt ∈ old.source.receipt, next.source.receipt = some receipt
  receiverReceipt : ∀ receipt ∈ old.receiver.receipt, next.receiver.receipt = some receipt
  capture : next.capture = old.capture ∨ old.capture = .started ∧ next.capture = .unknown
  manifest : next.sourceManifest = old.sourceManifest ∨ old.capture = .started ∧ old.sourceManifest = none

omit [Sha256] in
theorem Edit.edited {old next : Transfer} (edit : Edit old next) : Edited old next := by
  cases edit with
  | finishSource receipt open_ =>
    refine ⟨rfl,rfl,rfl,rfl,rfl,rfl,rfl,rfl,rfl,rfl,fun holds => holds,fun earlier known => ?_,fun _ holds => holds,?_,.inl rfl⟩
    · rw [open_] at known
      cases known
    · by_cases failed : receipt.cleanSuccess = false ∧ old.capture = .started
      · exact .inr ⟨failed.2,if_pos failed⟩
      · exact .inl (if_neg failed)
  | captureReceipt receipt started agrees =>
    refine ⟨rfl,rfl,rfl,rfl,rfl,rfl,rfl,rfl,rfl,rfl,fun holds => holds,fun earlier known => ?_,fun _ holds => holds,.inl rfl,.inl rfl⟩
    rw [agrees earlier known]
  | captureManifest manifest started agrees =>
    refine ⟨rfl,rfl,rfl,rfl,rfl,rfl,rfl,rfl,rfl,rfl,fun holds => holds,fun _ holds => holds,fun _ holds => holds,.inl rfl,?_⟩
    cases known : old.sourceManifest with
    | none => exact .inr ⟨started,rfl⟩
    | some earlier =>
      have same : old.sourceManifest = manifest := by_contra fun differs => agrees ⟨by rw [known]; rfl,differs⟩
      exact .inl (same.symm.trans known)
  | captureFails started =>
    exact ⟨rfl,rfl,rfl,rfl,rfl,rfl,rfl,rfl,rfl,rfl,fun holds => holds,fun _ holds => holds,fun _ holds => holds,.inr ⟨started,rfl⟩,.inl rfl⟩
  | finishReceive receipt open_ =>
    refine ⟨rfl,rfl,rfl,rfl,rfl,rfl,rfl,rfl,rfl,rfl,fun holds => holds,fun _ holds => holds,fun earlier known => ?_,.inl rfl,.inl rfl⟩
    rw [open_] at known
    cases known
  | observe operation =>
    exact ⟨rfl,rfl,rfl,rfl,rfl,rfl,rfl,rfl,rfl,rfl,fun holds => holds,fun _ holds => holds,fun _ holds => holds,.inl rfl,.inl rfl⟩
  | interrupt source receiver =>
    refine ⟨rfl,rfl,rfl,rfl,rfl,rfl,rfl,rfl,rfl,rfl,fun holds => ?_,fun _ holds => holds,fun _ holds => holds,?_,.inl rfl⟩
    · simp [holds]
    · by_cases started : old.capture = .started
      · exact .inr ⟨started,if_pos started⟩
      · exact .inl (if_neg started)

section
variable {old next : Transfer} {row : TransferRow} {payloads : Table PayloadRow}

omit [Sha256] in
theorem Edited.retired (edited : Edited old next) : next.capture.retired = old.capture.retired := by
  rcases edited.capture with same | ⟨started,unknown⟩
  · rw [same]
  · rw [started,unknown]
    rfl

omit [Sha256] in
theorem Edited.later (edited : Edited row.metadata next) :
    Later row { row with metadata := { next with revision := row.metadata.revision + 1 } } where
  handle := rfl
  id := rfl
  source := rfl
  maximum := edited.maximum
  age := Nat.le_succ _
  same := fun equal => absurd equal (Nat.succ_ne_self _)
  begun := fun begun => by
    rcases edited.capture with same | ⟨_,unknown⟩
    · exact same ▸ begun
    · change next.capture ≠ .reserved
      rw [unknown]
      decide
  retired := fun holds => edited.retired.trans holds
  sourceOperation := fun _ holds => edited.sourceOperation.trans holds
  receiverOperation := fun _ holds => edited.receiverOperation.trans holds
  sourceReceipt := edited.sourceReceipt
  receiverReceipt := edited.receiverReceipt
  inputStarted := fun holds => edited.inputStarted.trans holds
  interrupted := edited.interrupted
  bytes := fun _ holds => edited.bytes.trans holds
  sha256 := fun _ holds => edited.sha256.trans holds
  manifest := fun manifest holds => by
    rcases edited.manifest with same | ⟨_,none_⟩
    · exact same.trans holds
    · rw [none_] at holds
      cases holds
  delivered := fun holds => edited.delivered.trans holds
  recipient := fun _ holds => edited.recipient.trans holds
  fixed := fun _ => rfl
  handed := fun differs => absurd rfl differs

theorem RowSound.edited (sound : RowSound payloads row) (edited : Edited row.metadata next) (revision : Nat) :
    RowSound payloads { row with metadata := { next with revision := revision } } where
  named := edited.id.trans sound.named
  wallet := edited.wallet.trans sound.wallet
  apart := sound.apart
  positive := by
    change 0 < next.maximumBytes
    rw [edited.maximum]
    exact sound.positive
  erased := fun retired => sound.erased (edited.retired.symm.trans retired)
  reserved := fun live => by
    change row.capacity = next.maximumBytes * 2
    rw [edited.maximum]
    exact sound.reserved (edited.retired.symm.trans live)
  bodies := fun live => by
    obtain ⟨source,inbox,captured,space,facts⟩ := sound.bodies (edited.retired.symm.trans live)
    refine ⟨source,inbox,captured,space,facts.sourceLength.trans edited.maximum.symm,
      facts.inboxLength.trans edited.maximum.symm,fun ready => ?_,fun delivered => ?_⟩
    · -- What an edit leaves ready has been ready before.
      change next.capture = .ready at ready
      rcases edited.capture with same | ⟨_,unknown⟩
      · obtain ⟨size,fits,sized,digest,manifest⟩ := facts.ready (same ▸ ready)
        refine ⟨size,fits,edited.bytes.trans sized,edited.sha256.trans digest,?_⟩
        rcases edited.manifest with alike | ⟨started,_⟩
        · exact alike.trans manifest
        · rw [← same,ready] at started
          cases started
      · rw [unknown] at ready
        cases ready
    · obtain ⟨ready,equal⟩ := facts.delivered (edited.delivered.symm.trans delivered)
      refine ⟨?_,fun size sized => equal size (edited.bytes.symm.trans sized)⟩
      rcases edited.capture with same | ⟨started,_⟩
      · exact same.trans ready
      · rw [ready] at started
        cases started
  unclaimed := fun reserved => by
    change next.capture = .reserved at reserved
    rcases edited.capture with same | ⟨_,unknown⟩
    · exact edited.sourceOperation.trans (sound.unclaimed (same ▸ reserved))
    · rw [unknown] at reserved
      cases reserved
  blank := fun early => by
    change next.capture = .reserved ∨ next.capture = .started at early
    rcases edited.capture with same | ⟨_,unknown⟩
    · obtain ⟨bytes,digest⟩ := sound.blank (same ▸ early)
      exact ⟨edited.bytes.trans bytes,edited.sha256.trans digest⟩
    · rw [unknown] at early
      rcases early with wrong | wrong <;> cases wrong
  received := fun accepted => by
    change next.receiver.operationId.isSome at accepted
    rw [edited.receiverOperation] at accepted
    exact edited.delivered.trans (sound.received accepted)
end

section
variable {statement : Statement} {db after : Db}

theorem Follows.prepare {limits : Limits} {source destination : Grant} {key : String} {maximumBytes : Nat}
    {random : List UInt8} {index timestamp : Nat} (opened : db.closed = false) (positive : 0 < maximumBytes)
    (apart : source.wallet ≠ destination.wallet) (fresh : ∀ row ∈ db.transfers, row.id < index)
    (unnamed : db.transfers.find ("payload-" ++ Sha256.digest random) = none)
    (unused : db.payloads.find (sourceBody index) = none ∧ db.payloads.find (inboxBody index) = none) :
    Follows db { db with
      transfers := db.transfers.insert
        (reservation limits source destination key maximumBytes random index timestamp db)
      payloads := (db.payloads.insert ⟨sourceBody index,.replicate maximumBytes 0⟩).insert
        ⟨inboxBody index,.replicate maximumBytes 0⟩ } := by
  have free : (db.payloads.insert ⟨sourceBody index,.replicate maximumBytes 0⟩).find (inboxBody index) = none := by
    have other : ¬ sourceBody index = inboxBody index := by
      simp only [sourceBody,inboxBody]
      omega
    rw [Table.find_insert,unused.2,Option.none_or]
    exact if_neg other
  have bodies : ∀ body : PayloadRow, body ∈ (db.payloads.insert ⟨sourceBody index,.replicate maximumBytes 0⟩).insert
      ⟨inboxBody index,.replicate maximumBytes 0⟩ ↔ body ∈ db.payloads ∨ body = ⟨sourceBody index,.replicate maximumBytes 0⟩ ∨
        body = ⟨inboxBody index,.replicate maximumBytes 0⟩ := by
    intro body
    rw [Table.mem_insert,Table.mem_insert]
    constructor
    · rintro ((held | ⟨rfl,_⟩) | ⟨rfl,_⟩)
      · exact .inl held
      · exact .inr (.inl rfl)
      · exact .inr (.inr rfl)
    · rintro (held | rfl | rfl)
      · exact .inl (.inl held)
      · exact .inl (.inr ⟨rfl,unused.1⟩)
      · exact .inr ⟨rfl,free⟩
  refine ⟨fun row member => ⟨row,Table.mem_insert_of_mem member,.refl row⟩,fun shut => shut,fun shut => ?_,fun sound => ?_⟩
  · rw [opened] at shut
    cases shut
  · refine ⟨fun row member => ?_,fun a first b second same => ?_,fun body held => ?_⟩
    · rcases Table.mem_insert.mp member with old | ⟨rfl,_⟩
      · exact (sound.rows row old).congr fun body _ held => (bodies body).mpr (.inl held)
      · refine ⟨rfl,rfl,apart,positive,fun retired => (nomatch retired),fun _ => rfl,fun _ => ?_,fun _ => rfl,fun _ => ⟨rfl,rfl⟩,
          fun accepted => (nomatch accepted)⟩
        exact ⟨_,_,(bodies _).mpr (.inr (.inl rfl)),(bodies _).mpr (.inr (.inr rfl)),List.length_replicate,
          List.length_replicate,fun ready => (nomatch ready),fun delivered => (nomatch delivered)⟩
    · rcases Table.mem_insert.mp first with left | ⟨one,_⟩
      · rcases Table.mem_insert.mp second with right | ⟨two,_⟩
        · exact sound.places a left b right same
        · rw [two] at same
          exact absurd same (Nat.ne_of_lt (fresh a left))
      · rcases Table.mem_insert.mp second with right | ⟨two,_⟩
        · rw [one] at same
          exact absurd same (Nat.ne_of_gt (fresh b right))
        · exact one.trans two.symm
    · rcases (bodies body).mp held with old | rfl | rfl
      · obtain ⟨row,member,live,place⟩ := sound.owned body old
        exact ⟨row,Table.mem_insert_of_mem member,live,place⟩
      · exact ⟨_,Table.mem_insert.mpr (.inr ⟨rfl,unnamed⟩),rfl,.inl rfl⟩
      · exact ⟨_,Table.mem_insert.mpr (.inr ⟨rfl,unnamed⟩),rfl,.inr rfl⟩

omit [Sha256] in
/-- A body is written; it keeps its place. -/
theorem mem_setBody {place : Nat} {bytes : List UInt8} {body : PayloadRow}
    (held : ∃ old, (⟨place,old⟩ : PayloadRow) ∈ db.payloads) :
    body ∈ (setBody place bytes db).payloads ↔ body = ⟨place,bytes⟩ ∨ body ∈ db.payloads ∧ body.id ≠ place := by
  rw [setBody,Table.mem_update]
  constructor
  · rintro (⟨member,different⟩ | ⟨old,_,rfl,rfl⟩)
    · exact .inr ⟨member,different⟩
    · exact .inl rfl
  · rintro (rfl | ⟨member,different⟩)
    · obtain ⟨old,there⟩ := held
      exact .inr ⟨⟨place,old⟩,there,rfl,rfl⟩
    · exact .inl ⟨member,different⟩

/-- One body of a row is written. -/
theorem Sound.setBody {row next : TransferRow} {place : Nat} {bytes : List UInt8} (sound : Sound db) (member : row ∈ db.transfers)
    (handle : next.handle = row.handle) (id : next.id = row.id) (mine : placeOf row.id place)
    (held : ∃ old, (⟨place,old⟩ : PayloadRow) ∈ db.payloads) (live : next.metadata.capture.retired = false)
    (own : RowSound (Custody.setBody place bytes db).payloads next) :
    Sound (Custody.replaced next (Custody.setBody place bytes db)) := by
  have elsewhere : ∀ body : PayloadRow, ¬ placeOf row.id body.id →
      (body ∈ (Custody.setBody place bytes db).payloads ↔ body ∈ db.payloads) := by
    intro body other
    rw [mem_setBody held]
    constructor
    · rintro (rfl | ⟨there,_⟩)
      · exact absurd mine other
      · exact there
    · exact fun there => .inr ⟨there,fun same => other (same ▸ mine)⟩
  exact sound.replaced member handle id own elsewhere fun _ _ _ => live

variable {row : TransferRow}

section
variable (sound : Sound db) (member : row ∈ db.transfers)
include sound member

theorem Follows.handoff {destination : Grant} (wallet : destination.wallet = row.metadata.destinationWallet)
    (first : row.metadata.recipient = none)
    (undelivered : row.metadata.delivered = false) (unread : row.metadata.receiver.operationId = none) :
    Follows db (replaced { row with
      destination := destination
      metadata := { row.metadata with
        recipient := some ⟨destination.principal,destination.authority⟩
        revision := row.metadata.revision + 1 } } db) := by
  have own := sound.rows row member
  refine .of_row member ?_ rfl rfl fun _ => ?_
  · exact { Later.refl row with
      age := Nat.le_succ _
      same := fun equal => absurd equal (Nat.succ_ne_self _)
      recipient := fun recipient known => by rw [first] at known; cases known
      fixed := fun known => by simp [first,undelivered,unread] at known
      handed := fun _ => rfl }
  refine sound.replaced_record member rfl rfl { own with wallet := wallet.symm, apart := ?_, bodies := ?_ } fun live => live
  · change row.source.wallet ≠ destination.wallet
    rw [wallet,own.wallet]
    exact own.apart
  · intro live
    obtain ⟨source,inbox,captured,space,facts⟩ := own.bodies live
    exact ⟨source,inbox,captured,space,{ facts with }⟩

theorem Follows.beginCapture {operation : String} (reserved : row.metadata.capture = .reserved) :
    Follows db (replaced { row with
      metadata := { row.metadata with
        capture := .started
        source := { row.metadata.source with operationId := some operation }
        revision := row.metadata.revision + 1 } } db) := by
  have own := sound.rows row member
  have live : row.metadata.capture.retired = false := by rw [reserved]; rfl
  refine .of_row member ?_ rfl rfl fun _ => ?_
  · exact { Later.refl row with
      age := Nat.le_succ _
      same := fun equal => absurd equal (Nat.succ_ne_self _)
      begun := fun begun => absurd reserved begun
      retired := fun retired => by rw [live] at retired; cases retired
      sourceOperation := fun earlier claimed => by rw [own.unclaimed reserved] at claimed; cases claimed }
  refine sound.replaced_record member rfl rfl { own with
    erased := fun retired => (nomatch retired)
    reserved := fun _ => own.reserved live
    bodies := fun _ => ?_
    unclaimed := fun wrong => (nomatch wrong)
    blank := fun _ => own.blank (.inl reserved) } fun _ => rfl
  obtain ⟨source,inbox,captured,space,facts⟩ := own.bodies live
  refine ⟨source,inbox,captured,space,{ facts with ready := fun wrong => (nomatch wrong), delivered := fun delivered => ?_ }⟩
  obtain ⟨ready,_⟩ := facts.delivered delivered
  rw [reserved] at ready
  cases ready

theorem Follows.stage {body read : List UInt8} (started : row.metadata.capture = .started)
    (held : (⟨sourceBody row.id,body⟩ : PayloadRow) ∈ db.payloads)
    (fits : read.length ≤ body.length)
    (manifest : row.metadata.sourceManifest = some ⟨read.length,Sha256.digest read⟩) :
    Follows db (replaced { row with
      metadata := { row.metadata with
        bytes := some read.length
        sha256 := some (Sha256.digest read)
        capture := .ready
        revision := row.metadata.revision + 1 } } (setBody (sourceBody row.id) (overwrite body read) db)) := by
  have own := sound.rows row member
  have live : row.metadata.capture.retired = false := by rw [started]; rfl
  obtain ⟨bytes,digest⟩ := own.blank (.inr started)
  refine .of_row member ?_ rfl rfl fun _ => ?_
  · exact { Later.refl row with
      age := Nat.le_succ _
      same := fun equal => absurd equal (Nat.succ_ne_self _)
      begun := fun _ => nofun
      retired := fun retired => by rw [live] at retired; cases retired
      bytes := fun size known => by rw [bytes] at known; cases known
      sha256 := fun earlier known => by rw [digest] at known; cases known }
  refine sound.setBody member rfl rfl (.inl rfl) ⟨body,held⟩ rfl { own with
    erased := fun retired => (nomatch retired)
    reserved := fun _ => own.reserved live
    bodies := fun _ => ?_
    unclaimed := fun wrong => (nomatch wrong)
    blank := fun early => early.elim (fun wrong => (nomatch wrong)) fun wrong => (nomatch wrong) }
  obtain ⟨source,inbox,captured,space,facts⟩ := own.bodies live
  have one : (⟨sourceBody row.id,source⟩ : PayloadRow) = ⟨sourceBody row.id,body⟩ := Table.eq_of_key captured held rfl
  cases one
  refine ⟨overwrite body read,inbox,(mem_setBody ⟨body,held⟩).mpr (.inl rfl),
    (mem_setBody ⟨body,held⟩).mpr (.inr ⟨space,?_⟩),(length_overwrite fits).trans facts.sourceLength,facts.inboxLength,
    fun _ => ?_,fun delivered => ?_⟩
  · change inboxBody row.id ≠ sourceBody row.id
    simp only [sourceBody,inboxBody]
    omega
  · refine ⟨read.length,?_,rfl,?_,?_⟩
    · rw [length_overwrite fits]
      exact fits
    · rw [take_overwrite]
    · rw [take_overwrite]
      exact manifest
  · obtain ⟨ready,_⟩ := facts.delivered delivered
    rw [started] at ready
    cases ready

theorem Follows.deliver {source inbox : List UInt8} {size : Nat} (ready : row.metadata.capture = .ready)
    (sized : row.metadata.bytes = some size)
    (captured : (⟨sourceBody row.id,source⟩ : PayloadRow) ∈ db.payloads)
    (space : (⟨inboxBody row.id,inbox⟩ : PayloadRow) ∈ db.payloads) (whole : (source.take size).length = size)
    (fits : (source.take size).length ≤ inbox.length) :
    Follows db (replaced { row with
      metadata := { row.metadata with delivered := true, revision := row.metadata.revision + 1 } }
        (setBody (inboxBody row.id) (overwrite inbox (source.take size)) db)) := by
  have own := sound.rows row member
  have live : row.metadata.capture.retired = false := by rw [ready]; rfl
  refine .of_row member ?_ rfl rfl fun _ => ?_
  · exact { Later.refl row with
      age := Nat.le_succ _
      same := fun equal => absurd equal (Nat.succ_ne_self _)
      delivered := fun _ => rfl }
  refine sound.setBody member rfl rfl (.inr rfl) ⟨inbox,space⟩ live { own with bodies := fun _ => ?_, received := fun _ => rfl }
  obtain ⟨source_,inbox_,captured_,space_,facts⟩ := own.bodies live
  have one : (⟨sourceBody row.id,source_⟩ : PayloadRow) = ⟨sourceBody row.id,source⟩ := Table.eq_of_key captured_ captured rfl
  have two : (⟨inboxBody row.id,inbox_⟩ : PayloadRow) = ⟨inboxBody row.id,inbox⟩ := Table.eq_of_key space_ space rfl
  cases one
  cases two
  refine ⟨source,overwrite inbox (source.take size),(mem_setBody ⟨inbox,space⟩).mpr (.inr ⟨captured,?_⟩),
    (mem_setBody ⟨inbox,space⟩).mpr (.inl rfl),facts.sourceLength,(length_overwrite fits).trans facts.inboxLength,
    facts.ready,fun _ => ⟨ready,fun n known => ?_⟩⟩
  · change sourceBody row.id ≠ inboxBody row.id
    simp only [sourceBody,inboxBody]
    omega
  · have same : size = n := Option.some.inj (sized.symm.trans known)
    have copied := take_overwrite inbox (source.take size)
    rw [whole] at copied
    rw [← same]
    exact copied

theorem Follows.beginReceive {operation : String} (delivered : row.metadata.delivered = true)
    (unread : row.metadata.receiver.operationId = none) :
    Follows db (replaced { row with
      metadata := { row.metadata with
        receiver := { row.metadata.receiver with operationId := some operation }
        revision := row.metadata.revision + 1 } } db) := by
  have own := sound.rows row member
  refine .of_row member ?_ rfl rfl fun _ => ?_
  · exact { Later.refl row with
      age := Nat.le_succ _
      same := fun equal => absurd equal (Nat.succ_ne_self _)
      receiverOperation := fun earlier claimed => by rw [unread] at claimed; cases claimed }
  refine sound.replaced_record member rfl rfl { own with bodies := fun live => ?_, received := fun _ => delivered } fun live => live
  obtain ⟨source,inbox,captured,space,facts⟩ := own.bodies live
  exact ⟨source,inbox,captured,space,{ facts with }⟩

theorem Follows.consume :
    Follows db (replaced { row with
      metadata := { row.metadata with
        receiver := { row.metadata.receiver with inputStarted := true }
        revision := row.metadata.revision + 1 } } db) := by
  have own := sound.rows row member
  refine .of_row member ?_ rfl rfl fun _ => ?_
  · exact { Later.refl row with
      age := Nat.le_succ _
      same := fun equal => absurd equal (Nat.succ_ne_self _)
      inputStarted := fun _ => rfl }
  refine sound.replaced_record member rfl rfl { own with bodies := fun live => ?_ } fun live => live
  obtain ⟨source,inbox,captured,space,facts⟩ := own.bodies live
  exact ⟨source,inbox,captured,space,{ facts with }⟩

theorem Follows.erase {phase : CapturePhase} (retires : phase.retired = true) :
    Follows db { replaced { row with
      metadata := { row.metadata with capture := phase, revision := row.metadata.revision + 1 }
      capacity := 0 } db with
        payloads := db.payloads.delete fun body => body.id = sourceBody row.id ∨ body.id = inboxBody row.id } := by
  have own := sound.rows row member
  refine .of_row member ?_ rfl rfl fun _ => ?_
  · exact { Later.refl row with
      age := Nat.le_succ _
      same := fun equal => absurd equal (Nat.succ_ne_self _)
      begun := fun _ wrong => by rw [show phase = .reserved from wrong] at retires; cases retires
      retired := fun _ => retires }
  refine sound.replaced member rfl rfl { own with
    erased := fun _ => rfl
    reserved := fun live => ?_
    bodies := fun live => ?_
    unclaimed := fun wrong => ?_
    blank := fun early => ?_ } (fun body other => ?_) fun body held mine => ?_
  · rw [show phase.retired = false from live] at retires
    cases retires
  · rw [show phase.retired = false from live] at retires
    cases retires
  · rw [show phase = .reserved from wrong] at retires
    cases retires
  · rcases early with wrong | wrong <;> (rw [show phase = _ from wrong] at retires; cases retires)
  · rw [Table.mem_delete]
    exact ⟨fun both => both.1,fun there => ⟨there,other⟩⟩
  · exact absurd mine (Table.mem_delete.mp held).2
end

/-- Each effect keeps what holds of a vault, and moves its rows forward. -/
theorem Effect.follows (effect : Effect statement db after) (sound : Sound db) : Follows db after := by
  cases effect with
  | setClock clock =>
    exact ⟨fun row member => ⟨row,member,.refl row⟩,fun shut => shut,fun _ row member => ⟨row,member,rfl⟩,
      fun sound => ⟨sound.rows,sound.places,sound.owned⟩⟩
  | close =>
    exact ⟨fun row member => ⟨row,member,.refl row⟩,fun _ => rfl,fun _ row member => ⟨row,member,rfl⟩,
      fun sound => ⟨sound.rows,sound.places,sound.owned⟩⟩
  | again => exact .refl db
  | prepare limits source destination k maximumBytes random _ index timestamp opened positive apart fresh unnamed unused =>
    exact .prepare opened positive apart fresh unnamed unused
  | handoff source destination id _ row member _ _ wallet first _ undelivered unread =>
    exact .handoff sound member wallet first undelivered unread
  | beginCapture grant t operation _ row member _ reserved => exact .beginCapture sound member reserved
  | save t _ row member _ edit =>
    have own := sound.rows row member
    refine .of_row member edit.edited.later rfl rfl fun _ => ?_
    exact sound.replaced_record member rfl rfl (own.edited edit.edited _) fun live => edit.edited.retired.trans live
  | stage grant index t reader _ row body read member _ started _ held fits _ manifest =>
    exact .stage sound member started held fits manifest
  | deliver grant index t _ row source inbox size member _ ready _ _ sized captured space whole fits =>
    exact .deliver sound member ready sized captured space whole fits
  | beginReceive grant index t operation _ row member _ delivered _ unread => exact .beginReceive sound member delivered unread
  | consume grant index t _ row member => exact .consume sound member
  | erase id phase grant _ row member _ _ retires => exact .erase sound member retires
end

end Proofstorm.Custody
