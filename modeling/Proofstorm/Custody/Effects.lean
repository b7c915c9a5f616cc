import Proofstorm.Custody.Calls

/-!
What the statements of the vault do. A call's record is as good as the row: where
the revision is still that of the record, the row is as the call has read it, and
a statement does to the row what the source does to the record (`Effect`, `Edit`).
-/
namespace Proofstorm.Custody

/-! ### One row of the transfers -/

/-- The row of a handle is replaced. -/
def replaced (next : TransferRow) (db : Db) : Db :=
  { db with
    transfers := db.transfers.update (fun row => row.handle = next.handle)
      (fun row => { next with handle := row.handle }) (fun _ => rfl) }

section
variable {db : Db} {row next other : TransferRow}

theorem mem_replaced (present : row ∈ db.transfers) (same : row.handle = next.handle) :
    other ∈ (replaced next db).transfers ↔ other = next ∨ other ∈ db.transfers ∧ other.handle ≠ next.handle := by
  rw [replaced,Table.mem_update]
  constructor
  · rintro (⟨member,different⟩ | ⟨old,_,named,rfl⟩)
    · exact .inr ⟨member,different⟩
    · left
      rw [named]
  · rintro (rfl | ⟨member,different⟩)
    · refine .inr ⟨row,present,same,?_⟩
      rw [same]
    · exact .inl ⟨member,different⟩

theorem replaced_mem (next : TransferRow) (present : row ∈ db.transfers) (same : row.handle = next.handle) :
    next ∈ (replaced next db).transfers :=
  (mem_replaced present same).mpr (.inl rfl)

theorem row_unique {a b : TransferRow} (left : a ∈ db.transfers) (right : b ∈ db.transfers) (same : a.handle = b.handle) :
    a = b :=
  Table.eq_of_key left right same

/-- An update of the row of a handle replaces the row. -/
theorem update_eq_replaced (next : TransferRow) (f : TransferRow → TransferRow) (keeps : ∀ row, key (f row) = key row)
    (present : row ∈ db.transfers) (same : row.handle = next.handle) (changed : f row = next) :
    { db with transfers := db.transfers.update (fun row => row.handle = next.handle) f keeps } = replaced next db := by
  rw [replaced]
  congr 1
  refine Table.ext (List.map_congr_left fun old member => ?_)
  by_cases named : old.handle = next.handle
  · have one : old = row := row_unique (Table.mem_rows.mp member) present (named.trans same.symm)
    rw [if_pos named,if_pos named,one,changed]
    change next = { next with handle := row.handle }
    rw [same]
  · rw [if_neg named,if_neg named]

/-- Of two replacements of one row the second counts. -/
theorem replaced_replaced (first second : TransferRow) (same : first.handle = second.handle) :
    replaced second (replaced first db) = replaced second db := by
  simp only [replaced,Db.mk.injEq,true_and,and_true]
  refine Table.ext ?_
  simp only [Table.update,List.map_map]
  refine List.map_congr_left fun old _ => ?_
  by_cases named : old.handle = second.handle
  · simp [named,same]
  · have other : ¬ old.handle = first.handle := fun one => named (one.trans same)
    simp [named,other]

theorem setMetadata_eq {t : Transfer} (present : row ∈ db.transfers) (same : row.handle = t.id) :
    setMetadata t db = replaced { row with metadata := t } db := by
  rw [setMetadata,← same]
  exact update_eq_replaced { row with metadata := t } (fun row => { row with metadata := t }) (fun _ => rfl) present rfl rfl
end

/-! ### What the reads say -/

section
variable {db after : Db} {grant : Grant} {t next : Transfer}

theorem rowOf_ok {id : String} {row : TransferRow} : rowOf id db = .ok row ↔ row ∈ db.transfers ∧ row.handle = id := by
  rw [rowOf,require_ok,Table.find_eq_some]
  exact Iff.rfl

theorem usable_ok {u : Unit} (usable : usable t db = .ok u) : t.capture.retired = false := by
  simp only [Custody.usable,bind_ok,ensure_ok,not_or] at usable
  obtain ⟨_,_,_,retired⟩ := usable
  simpa using retired

/-- Admission: the vault is open, the grant is of one of the two sides, and the transfer is not retired. -/
theorem admission_ok {u : Unit} (admitted : admission grant t db = .ok u) : db.closed = false ∧
    ∃ row ∈ db.transfers, row.handle = t.id ∧ (grant = row.source ∨ grant = row.destination) ∧
      row.metadata.capture.retired = false := by
  simp only [admission,bind_ok,ensure_ok] at admitted
  obtain ⟨_,opened,row,read,_,sides,usable⟩ := admitted
  obtain ⟨member,named⟩ := rowOf_ok.mp read
  refine ⟨opened,row,member,named,?_,usable_ok usable⟩
  by_cases first : grant = row.source
  · exact .inl first
  · exact .inr (by_contra fun second => sides ⟨first,second⟩)

theorem claimOperation_ok {operation : String} {u : Unit} (claimed : claimOperation operation db = .ok u) :
    ∀ row ∈ db.transfers, ¬ row.metadata.runs operation := by
  rw [claimOperation,ensure_ok,List.length_eq_zero_iff,List.filter_eq_nil_iff] at claimed
  exact fun row member => by simpa using claimed row member

theorem bodyOf_ok {place : Nat} {body : List UInt8} : bodyOf place db = .ok body ↔ (⟨place,body⟩ : PayloadRow) ∈ db.payloads := by
  cases found : db.payloads.find place with
  | none =>
    rw [bodyOf,found]
    exact ⟨fun none_ => (nomatch none_),fun member => absurd rfl (Table.find_eq_none.mp found _ member)⟩
  | some row =>
    obtain ⟨member,named⟩ := Table.find_eq_some.mp found
    obtain ⟨id,held⟩ := row
    obtain rfl : id = place := named
    rw [bodyOf,found]
    constructor
    · rintro ⟨⟩
      exact member
    · intro other
      have one : (⟨id,held⟩ : PayloadRow) = ⟨id,body⟩ := Table.eq_of_key member other rfl
      cases one
      rfl

/-- A record is saved over the row that it was read from. -/
theorem save_ok (saved : save t db = .ok (next,after)) : next = { t with revision := t.revision + 1 } ∧
    ∃ row ∈ db.transfers, row.handle = t.id ∧ row.metadata.revision = t.revision ∧
      after = replaced { row with metadata := next } db := by
  simp only [save,bind_ok,ensure_ok,pure_ok,Prod.mk.injEq] at saved
  obtain ⟨_,_,_,⟨row,member,named,revision⟩,rfl,rfl⟩ := saved
  exact ⟨rfl,row,member,named,revision,setMetadata_eq (Table.mem_rows.mp member) named⟩

theorem verifyBlob_ok [Sha256] {place : Nat} {u : Unit} (verified : verifyBlob place t db = .ok u) :
    ∃ size body, t.bytes = some size ∧ (⟨place,body⟩ : PayloadRow) ∈ db.payloads ∧ (body.take size).length = size ∧
      t.sha256 = some (Sha256.digest (body.take size)) := by
  simp only [verifyBlob,bind_ok,require_ok,ensure_ok] at verified
  obtain ⟨size,sized,body,read,out,copied,length,digest⟩ := verified
  obtain rfl := copyBounded_ofBody copied
  exact ⟨size,body,sized,bodyOf_ok.mp read,length,digest⟩
end

/-! ### What a statement does -/

/-- The changes that calls make to a record outside of their transactions. -/
inductive Edit (old : Transfer) : Transfer → Prop
  | finishSource (receipt : NativeReceipt) (open_ : old.source.receipt = none) :
    Edit old { old with
      source := { old.source with receipt := some receipt }
      capture := if receipt.cleanSuccess = false ∧ old.capture = .started then .unknown else old.capture }
  | captureReceipt (receipt : NativeReceipt) (started : old.capture = .started)
      (agrees : ∀ earlier ∈ old.source.receipt, earlier = receipt) :
    Edit old { old with source := { old.source with receipt := some receipt } }
  | captureManifest (manifest : Option PayloadManifest) (started : old.capture = .started)
      (agrees : ¬ (old.sourceManifest.isSome ∧ old.sourceManifest ≠ manifest)) :
    Edit old { old with sourceManifest := manifest }
  | captureFails (started : old.capture = .started) : Edit old { old with capture := .unknown }
  | finishReceive (receipt : NativeReceipt) (open_ : old.receiver.receipt = none) :
    Edit old { old with receiver := { old.receiver with receipt := some receipt } }
  | observe (operation : String) : Edit old { old with observations := old.observations ++ [operation] }
  | interrupt (source receiver : Bool) :
    Edit old { old with
      source := { old.source with interrupted := old.source.interrupted || source }
      capture := if old.capture = .started then .unknown else old.capture
      receiver := { old.receiver with interrupted := old.receiver.interrupted || receiver } }

/-- The statement can be a retry, or can be rolled back and succeed. -/
def Statement.repeats : Statement → Bool
  | .prepare .. | .handoff .. | .stage .. | .deliver .. => true
  | _ => false

/-- The row that `prepare` inserts. -/
def reservation [Sha256] (limits : Limits) (source destination : Grant) (key : String) (maximumBytes : Nat)
    (random : List UInt8) (index timestamp : Nat) (db : Db) : TransferRow :=
  let id := "payload-" ++ Sha256.digest random
  { id := index
    handle := id
    requestKey := key
    request := ⟨source,destination,maximumBytes⟩
    source := source
    destination := destination
    metadata := ⟨none,0,id,db.workspace,db.cell,source.wallet,destination.wallet,maximumBytes,
      timestamp + limits.retentionSeconds,.reserved,none,none,none,false,.default,.default,[]⟩
    capacity := maximumBytes * 2 }

/-- The rows that hold payload. -/
def holding (db : Db) : List TransferRow := db.transfers.rows.filter fun row => 0 < row.capacity

/-- `Effect statement db after`: the statement took `db` to `after`. -/
inductive Effect [Sha256] : Statement → Db → Db → Prop
  | setClock (clock : Option Nat) (db : Db) : Effect (.setClock clock) db { db with clock := clock }
  | close (db : Db) : Effect .close db { db with closed := true }
  /-- A retry, or a capture that was rolled back. -/
  | again (statement : Statement) (db : Db) (repeats : statement.repeats = true) : Effect statement db db
  | prepare (limits : Limits) (source destination : Grant) (key : String) (maximumBytes : Nat) (random : List UInt8)
      (db : Db) (index timestamp : Nat) (opened : db.closed = false) (positive : 0 < maximumBytes)
      (apart : source.wallet ≠ destination.wallet) (fresh : ∀ row ∈ db.transfers, row.id < index)
      (unnamed : db.transfers.find ("payload-" ++ Sha256.digest random) = none)
      (unused : db.payloads.find (sourceBody index) = none ∧ db.payloads.find (inboxBody index) = none)
      (room : (holding db).length < limits.activeTransfers ∧
        ((holding db).map TransferRow.capacity).sum + maximumBytes * 2 ≤ limits.cellBytes) :
    Effect (.prepare limits source destination key maximumBytes random) db { db with
      transfers := db.transfers.insert
        (reservation limits source destination key maximumBytes random index timestamp db)
      payloads := (db.payloads.insert ⟨sourceBody index,.replicate maximumBytes 0⟩).insert
        ⟨inboxBody index,.replicate maximumBytes 0⟩ }
  | handoff (source destination : Grant) (id : String) (db : Db) (row : TransferRow) (member : row ∈ db.transfers)
      (named : row.handle = id) (owner : row.source = source)
      (wallet : destination.wallet = row.metadata.destinationWallet) (first : row.metadata.recipient = none)
      (ready : row.metadata.capture = .ready) (undelivered : row.metadata.delivered = false)
      (unread : row.metadata.receiver.operationId = none) :
    Effect (.handoff source destination id) db (replaced { row with
      destination := destination
      metadata := { row.metadata with
        recipient := some ⟨destination.principal,destination.authority⟩
        revision := row.metadata.revision + 1 } } db)
  | beginCapture (grant : Grant) (t : Transfer) (operation : String) (db : Db) (row : TransferRow)
      (member : row ∈ db.transfers) (named : row.handle = t.id) (reserved : row.metadata.capture = .reserved)
      (unclaimed : ∀ other ∈ db.transfers, ¬ other.metadata.runs operation) (opened : db.closed = false) :
    Effect (.beginCapture grant t operation) db (replaced { row with
      metadata := { row.metadata with
        capture := .started
        source := { row.metadata.source with operationId := some operation }
        revision := row.metadata.revision + 1 } } db)
  | save (t : Transfer) (db : Db) (row : TransferRow) (member : row ∈ db.transfers) (named : row.handle = t.id)
      (edit : Edit row.metadata t) :
    Effect (.save t) db (replaced { row with metadata := { t with revision := row.metadata.revision + 1 } } db)
  | stage (grant : Grant) (index : Nat) (t : Transfer) (reader : Reader) (db : Db) (row : TransferRow)
      (body read : List UInt8) (member : row ∈ db.transfers) (named : row.handle = t.id)
      (started : row.metadata.capture = .started) (opened : db.closed = false)
      (held : (⟨sourceBody row.id,body⟩ : PayloadRow) ∈ db.payloads) (fits : read.length ≤ body.length)
      (bounded : read.length ≤ row.metadata.maximumBytes)
      (manifest : row.metadata.sourceManifest = some ⟨read.length,Sha256.digest read⟩) :
    Effect (.stage grant index t reader) db (replaced { row with
      metadata := { row.metadata with
        bytes := some read.length
        sha256 := some (Sha256.digest read)
        capture := .ready
        revision := row.metadata.revision + 1 } } (setBody (sourceBody row.id) (overwrite body read) db))
  | deliver (grant : Grant) (index : Nat) (t : Transfer) (db : Db) (row : TransferRow) (source inbox : List UInt8)
      (size : Nat) (member : row ∈ db.transfers) (named : row.handle = t.id) (ready : row.metadata.capture = .ready)
      (undelivered : row.metadata.delivered = false) (opened : db.closed = false)
      (sized : row.metadata.bytes = some size)
      (captured : (⟨sourceBody row.id,source⟩ : PayloadRow) ∈ db.payloads)
      (space : (⟨inboxBody row.id,inbox⟩ : PayloadRow) ∈ db.payloads) (whole : (source.take size).length = size)
      (fits : (source.take size).length ≤ inbox.length) :
    Effect (.deliver grant index t) db (replaced { row with
      metadata := { row.metadata with delivered := true, revision := row.metadata.revision + 1 } }
        (setBody (inboxBody row.id) (overwrite inbox (source.take size)) db))
  | beginReceive (grant : Grant) (index : Nat) (t : Transfer) (operation : String) (db : Db) (row : TransferRow)
      (member : row ∈ db.transfers) (named : row.handle = t.id) (delivered : row.metadata.delivered = true)
      (live : row.metadata.capture.retired = false)
      (unread : row.metadata.receiver.operationId = none)
      (unclaimed : ∀ other ∈ db.transfers, ¬ other.metadata.runs operation) (opened : db.closed = false) :
    Effect (.beginReceive grant index t operation) db (replaced { row with
      metadata := { row.metadata with
        receiver := { row.metadata.receiver with operationId := some operation }
        revision := row.metadata.revision + 1 } } db)
  | consume (grant : Grant) (index : Nat) (t : Transfer) (db : Db) (row : TransferRow) (member : row ∈ db.transfers)
      (named : row.handle = t.id) (accepted : row.metadata.receiver.operationId.isSome)
      (live : row.metadata.capture.retired = false)
      (unstarted : row.metadata.receiver.inputStarted = false) (opened : db.closed = false) :
    Effect (.consume grant index t) db (replaced { row with
      metadata := { row.metadata with
        receiver := { row.metadata.receiver with inputStarted := true }
        revision := row.metadata.revision + 1 } } db)
  | erase (id : String) (phase : CapturePhase) (grant : Option Grant) (db : Db) (row : TransferRow)
      (member : row ∈ db.transfers) (named : row.handle = id) (owner : ∀ g ∈ grant, g = row.source)
      (retires : phase.retired = true) :
    Effect (.erase id phase grant) db { replaced { row with
      metadata := { row.metadata with capture := phase, revision := row.metadata.revision + 1 }
      capacity := 0 } db with
        payloads := db.payloads.delete fun body => body.id = sourceBody row.id ∨ body.id = inboxBody row.id }

/-! ### Execution is an effect -/

/-- The record of a call stands for a row: it was read from it, and where the
    revision is still that of the record nothing has changed. -/
structure Seen (index : Nat) (t : Transfer) (row : TransferRow) : Prop where
  named : row.handle = t.id
  place : row.id = index
  age : t.revision ≤ row.metadata.revision
  same : row.metadata.revision = t.revision → row.metadata = t

section
variable [Sha256] {db after : Db} {row : TransferRow} {t next : Transfer} {grant : Grant} {index : Nat} {operation : String}

omit [Sha256] in
/-- The row that the transaction has read is the row of the record. -/
theorem admission_row {u : Unit} (admitted : admission grant t db = .ok u) (member : row ∈ db.transfers)
    (named : row.handle = t.id) : db.closed = false ∧ (grant = row.source ∨ grant = row.destination) ∧
      row.metadata.capture.retired = false := by
  obtain ⟨opened,other,there,same,sides,live⟩ := admission_ok admitted
  obtain rfl := row_unique there member (same.trans named.symm)
  exact ⟨opened,sides,live⟩

theorem beginCaptureTx_effect (seen : Seen index t row) (member : row ∈ db.transfers) (reserved : t.capture = .reserved)
    (executed : beginCaptureTx grant
      { t with capture := .started, source := { t.source with operationId := some operation } } operation db =
        .ok (next,after)) :
    Effect (.beginCapture grant
      { t with capture := .started, source := { t.source with operationId := some operation } } operation) db after := by
  simp only [beginCaptureTx,bind_ok] at executed
  obtain ⟨_,admitted,_,claimed,saved⟩ := executed
  obtain ⟨rfl,other,there,named,revision,rfl⟩ := save_ok saved
  obtain rfl := row_unique there member (named.trans seen.named.symm)
  have same : other.metadata = t := seen.same revision
  obtain ⟨opened,_⟩ := admission_row admitted member named
  have effect := Effect.beginCapture grant
    { t with capture := .started, source := { t.source with operationId := some operation } } operation db other member named
    (by rw [same]; exact reserved) (claimOperation_ok claimed) opened
  rw [same] at effect
  exact effect

theorem save_effect (member : row ∈ db.transfers) (named : row.handle = t.id)
    (edit : row.metadata.revision = t.revision → Edit row.metadata t) (executed : save t db = .ok (next,after)) :
    Effect (.save t) db after := by
  obtain ⟨rfl,other,there,named_,revision,rfl⟩ := save_ok executed
  obtain rfl := row_unique there member (named_.trans named.symm)
  have effect := Effect.save t db other member named (edit revision)
  rw [revision] at effect
  exact effect

/-- The records are under their own handles. -/
def Named (db : Db) : Prop := ∀ row ∈ db.transfers, row.metadata.id = row.handle

theorem stageTx_effect {reader : Reader} {staged : Staged} (records : Named db)
    (executed : stageTx grant index t reader db = .ok (staged,after)) : Effect (.stage grant index t reader) db after := by
  simp only [stageTx,bind_ok,ensure_ok,not_or,not_not] at executed
  obtain ⟨row,read,_,⟨rfl,started,_⟩,_,admitted,body,held,ended⟩ := executed
  obtain ⟨member,named⟩ := rowOf_ok.mp read
  have own := records row member
  split at ended
  · rename_i next middle copied
    simp only [pure_ok,Prod.mk.injEq] at ended
    obtain ⟨rfl,rfl⟩ := ended
    simp only [bind_ok,ensure_ok] at copied
    obtain ⟨out,copied,_,manifest,saved⟩ := copied
    obtain ⟨bounded,fits⟩ := copyBounded_length copied
    obtain ⟨rfl,other,there,named_,_,rfl⟩ := save_ok saved
    have here : other ∈ db.transfers := there
    obtain rfl := row_unique here member (named_.trans own)
    obtain ⟨opened,_⟩ := admission_row admitted member own.symm
    exact .stage grant other.id t reader db other body out member named started opened (bodyOf_ok.mp held)
      (fits _ rfl) bounded manifest
  · simp only [pure_ok,Prod.mk.injEq] at ended
    obtain ⟨rfl,rfl⟩ := ended
    exact .again _ _ rfl

section
variable (seen : Seen index t row) (member : row ∈ db.transfers)
include seen member

theorem deliverTx_effect (ready : t.capture = .ready)
    (executed : deliverTx grant index t db = .ok (next,after)) : Effect (.deliver grant index t) db after := by
  simp only [deliverTx,bind_ok] at executed
  obtain ⟨_,admitted,executed⟩ := executed
  split at executed
  · simp only [bind_ok,pure_ok,Prod.mk.injEq] at executed
    obtain ⟨_,_,_,rfl⟩ := executed
    exact .again _ _ rfl
  · rename_i undelivered
    simp only [bind_ok,ensure_ok,require_ok] at executed
    obtain ⟨_,verified,source,from_,inbox,space,size,sized,out,copied,_,_,saved⟩ := executed
    obtain ⟨_,fits⟩ := copyBounded_length copied
    obtain rfl := copyBounded_ofBody copied
    obtain ⟨rfl,other,there,named,revision,rfl⟩ := save_ok saved
    have here : other ∈ db.transfers := there
    obtain rfl := row_unique here member (named.trans seen.named.symm)
    have same := seen.same revision
    obtain ⟨opened,_⟩ := admission_row admitted member seen.named
    obtain ⟨size_,body,sized_,held,whole,_⟩ := verifyBlob_ok verified
    obtain rfl : size = size_ := Option.some.inj (sized.symm.trans sized_)
    rw [← seen.place] at from_ space held ⊢
    have one : (⟨sourceBody other.id,source⟩ : PayloadRow) = ⟨sourceBody other.id,body⟩ :=
      Table.eq_of_key (bodyOf_ok.mp from_) held rfl
    cases one
    have effect := Effect.deliver grant other.id t db other source inbox size member seen.named (by rw [same]; exact ready)
      (by rw [same]; simpa using undelivered) opened (by rw [same]; exact sized) held (bodyOf_ok.mp space) whole
      (fits _ rfl)
    rw [same] at effect
    exact effect

theorem beginReceiveTx_effect (delivered : t.delivered = true)
    (executed : beginReceiveTx grant index t operation db = .ok (next,after)) :
    Effect (.beginReceive grant index t operation) db after := by
  simp only [beginReceiveTx,bind_ok,ensure_ok] at executed
  obtain ⟨_,admitted,_,_,_,claimed,read,found,_,unread,saved⟩ := executed
  obtain ⟨here,named_⟩ := rowOf_ok.mp found
  obtain rfl := row_unique here member (named_.trans seen.named.symm)
  obtain ⟨rfl,other,there,named,revision,rfl⟩ := save_ok saved
  obtain rfl := row_unique there member (named.trans seen.named.symm)
  have same := seen.same revision
  obtain ⟨opened,_,live⟩ := admission_row admitted member seen.named
  have effect := Effect.beginReceive grant index t operation db other member seen.named (by rw [same]; exact delivered) live
    (by simpa using unread) (claimOperation_ok claimed) opened
  rw [same] at effect
  exact effect

theorem consumeTx_effect (accepted : t.receiver.operationId.isSome)
    (unstarted : t.receiver.inputStarted = false) (executed : consumeTx grant index t db = .ok (next,after)) :
    Effect (.consume grant index t) db after := by
  simp only [consumeTx,bind_ok] at executed
  obtain ⟨_,admitted,_,_,saved⟩ := executed
  obtain ⟨rfl,other,there,named,revision,rfl⟩ := save_ok saved
  obtain rfl := row_unique there member (named.trans seen.named.symm)
  have same := seen.same revision
  obtain ⟨opened,_,live⟩ := admission_row admitted member seen.named
  have effect := Effect.consume grant index t db other member seen.named (by rw [same]; exact accepted) live
    (by rw [same]; exact unstarted) opened
  rw [same] at effect
  exact effect
end

variable {source destination : Grant} {id : String}

theorem handoffTx_effect (records : Named db)
    (executed : handoffTx source destination id db = .ok (next,after)) :
    Effect (.handoff source destination id) db after ∧ ∃ row ∈ db.transfers, row.handle = id ∧ row.source = source := by
  simp only [handoffTx,bind_ok,ensure_ok,not_or,not_not] at executed
  obtain ⟨row,read,_,⟨owner,wallet⟩,_,_,executed⟩ := executed
  obtain ⟨member,rfl⟩ := rowOf_ok.mp read
  have own := records row member
  refine ⟨?_,row,member,rfl,owner.symm⟩
  split at executed
  · simp only [bind_ok,pure_ok,Prod.mk.injEq] at executed
    obtain ⟨_,_,_,rfl⟩ := executed
    exact .again _ _ rfl
  · rename_i first
    simp only [bind_ok,ensure_ok] at executed
    obtain ⟨_,⟨ready,undelivered,unread⟩,saved⟩ := executed
    rw [update_eq_replaced { row with destination := destination } (fun row => { row with destination := destination })
      (fun _ => rfl) member rfl rfl] at saved
    obtain ⟨rfl,other,there,named_,_,rfl⟩ := save_ok saved
    have here := replaced_mem { row with destination := destination } member rfl
    obtain rfl := row_unique there here (named_.trans own)
    rw [replaced_replaced]
    · exact .handoff source destination row.handle db row member rfl owner.symm wallet (by simpa using first) ready
        (by simpa using undelivered) (by simpa using unread)
    · rfl

theorem eraseTx_effect {phase : CapturePhase} {authority : Option Grant} (records : Named db)
    (retires : phase.retired = true) (executed : eraseTx id phase authority db = .ok (next,after)) :
    Effect (.erase id phase authority) db after ∧ ∃ row ∈ db.transfers, row.handle = id ∧ ∀ g ∈ authority, g = row.source := by
  simp only [eraseTx,bind_ok,ensure_ok,pure_ok,Prod.mk.injEq] at executed
  obtain ⟨row,read,_,owner,_,_,⟨t,middle⟩,saved,rfl,rfl⟩ := executed
  obtain ⟨member,rfl⟩ := rowOf_ok.mp read
  refine ⟨?_,row,member,rfl,owner⟩
  obtain ⟨rfl,other,there,named_,_,rfl⟩ := save_ok saved
  obtain rfl := row_unique there member (named_.trans (records row member))
  have marked := replaced_mem { other with
    metadata := { other.metadata with capture := phase, revision := other.metadata.revision + 1 } } member rfl
  have erased := update_eq_replaced { other with
      metadata := { other.metadata with capture := phase, revision := other.metadata.revision + 1 }
      capacity := 0 }
    (fun row => { row with capacity := 0 }) (fun _ => rfl) marked rfl rfl
  rw [replaced_replaced] at erased
  · have effect := Effect.erase other.handle phase authority db other member rfl owner retires
    rw [← erased] at effect
    exact effect
  · rfl

omit [Sha256] in
theorem insertBody_ok {place : Nat} {body : List UInt8} (inserted : insertBody place body db = .ok after) :
    db.payloads.find place = none ∧ after = { db with payloads := db.payloads.insert ⟨place,body⟩ } := by
  simp only [insertBody,bind_ok,ensure_ok,pure_ok] at inserted
  obtain ⟨_,free,rfl⟩ := inserted
  exact ⟨Table.not_has.mp free,rfl⟩

omit [Sha256] in
theorem le_foldr_max {n : Nat} {list : List Nat} (member : n ∈ list) : n ≤ list.foldr max 0 := by
  induction list with
  | nil => cases member
  | cons first rest ih =>
    rcases List.mem_cons.mp member with rfl | later
    · exact Nat.le_max_left _ _
    · exact Nat.le_trans (ih later) (Nat.le_max_right _ _)

theorem prepareTx_effect {limits : Limits} {key : String} {maximumBytes : Nat}
    {random : List UInt8} (positive : 0 < maximumBytes) (apart : source.wallet ≠ destination.wallet)
    (executed : prepareTx limits source destination key maximumBytes random db = .ok (next,after)) :
    Effect (.prepare limits source destination key maximumBytes random) db after := by
  simp only [prepareTx,bind_ok,ensure_ok] at executed
  obtain ⟨_,opened,executed⟩ := executed
  split at executed
  · simp only [bind_ok,pure_ok,Prod.mk.injEq] at executed
    obtain ⟨_,_,_,rfl⟩ := executed
    exact .again _ _ rfl
  · simp only [bind_ok,ensure_ok,pure_ok,Prod.mk.injEq,not_or,Nat.not_le,Nat.not_lt] at executed
    obtain ⟨_,_,_,⟨_,count,used⟩,timestamp,_,_,unnamed,first,one,second,two,_,rfl⟩ := executed
    obtain ⟨free,rfl⟩ := insertBody_ok one
    obtain ⟨unused,rfl⟩ := insertBody_ok two
    let index := (db.transfers.rows.map TransferRow.id).foldr max 0 + 1
    refine .prepare limits source destination key maximumBytes random db index timestamp opened positive apart
      (fun row member => ?_) (Table.not_has.mp unnamed) ⟨free,?_⟩ ⟨count,used⟩
    · exact Nat.lt_succ_of_le (le_foldr_max (List.mem_map_of_mem member))
    · have both := Table.find_insert db.payloads ⟨sourceBody index,.replicate maximumBytes 0⟩ (inboxBody index)
      exact (Option.or_eq_none_iff.mp (both.symm.trans unused)).1
end

end Proofstorm.Custody
