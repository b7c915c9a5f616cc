import Proofstorm.Store.DraftCalls

/-!
The steps of the calls on drafts. Between the statement that changes a draft and
the one that records the receipt, a call can be lost, and others can write;
`Undisturbed` asks of a step that what its call has read, and what it has to
record, is still as the call left it. Such a step keeps the database that of the
serial execution, but for receipts that are due (`Underway.step`, `Tracks.other`).
-/
namespace Proofstorm.Store
open Proofstorm.Core
open Proofstorm.Interleaving (Call Performs Throughout Restricted query submit settle proceed proceed_ok proceed_error)

section
variable [CoreFunctions]

/-- The draft is the one that the call makes, where it has its effect on a
    database: an edit makes the next version, with its own cell. -/
def DraftCall.Makes (c : DraftCall) (draft : Draft) (db : Db) : Prop :=
  match c.work with
  | .create id cell => draft = ⟨id,c.workspace,1,cell⟩
  | .edit id expectedVersion cell => draft = ⟨id,c.workspace,expectedVersion + 1,cell⟩
  | .clone source target => ∃ row ∈ db.drafts, row.workspaceId = c.workspace ∧ row.id = source ∧
      draft = ⟨target,c.workspace,1,row.cell⟩

/-- An event of the call, at which the serial execution of the whole call gives the reply. -/
def Moment (c : DraftCall) (since : Nat) (log : List Event) (reply : Except StoreError Reply) : Prop :=
  ∃ newer event older, log = newer ++ event :: older ∧ event.request.draftCall = some c ∧ event.since = since ∧
    c.once (serial older) = (reply,serial (event :: older))

/-- The event is the effect of the call, whose key had no receipt. -/
structure Effective (c : DraftCall) (draft : Draft) (event : Event) (older : List Event) : Prop where
  request : event.request.draftCall = some c
  makes : c.Makes draft event.before
  new : draft ∈ event.after.drafts
  absent : draft ∉ event.before.drafts
  free : (serial older).idempotency.find c.receiptKey = none
  answer : c.once (serial older) = (.ok (.draft draft),serial (event :: older))
  recorded : (serial (event :: older)).idempotency = (serial older).idempotency.insert (c.receipt draft)

/-! ### Conditions -/

/-- What the next step of a draft call has to find in the database, and among the
    receipts that are recorded or `due`. -/
structure Clear (c : DraftCall) (due : Table ReceiptRow) (db : Db)
    (code : Call Db Statement StoreError Statement.Answer (Except StoreError Reply)) : Prop where
  /-- A call that found no receipt finds none due. -/
  fresh : code = finishing c.fresh → due.find c.receiptKey = none
  /-- So does a clone at its insertion, and its source has the cell that it read. -/
  copied : ∀ source target cell, c.work = .clone source target → code = finishing (c.insertCopy target cell) →
    due.find c.receiptKey = none ∧
      ∃ row ∈ db.drafts, row.workspaceId = c.workspace ∧ row.id = source ∧ row.cell = cell
  /-- A draft that was found at another version has not come to the expected one. -/
  stale : ∀ id expectedVersion cell, c.work = .edit id expectedVersion cell →
    code = finishing (c.readBack id expectedVersion 0) → due.find c.receiptKey = none ∧
      ∀ row ∈ db.drafts, row.workspaceId = c.workspace → row.id = id → row.version ≠ expectedVersion
  /-- A draft that was edited is still as the edit left it. -/
  edited : ∀ id expectedVersion cell changed, c.work = .edit id expectedVersion cell → changed ≠ 0 →
    code = finishing (c.readBack id expectedVersion changed) → ⟨id,c.workspace,expectedVersion + 1,cell⟩ ∈ db.drafts
  /-- The receipt to be recorded is due, and there is none under its key. -/
  recorded : ∀ draft, code = finishing (c.record draft) →
    db.idempotency.find c.receiptKey = none ∧ due.find c.receiptKey = some (c.receipt draft)

/-- No other call has come between the steps of a draft call, so far as its next
    step depends on it, and no other call looks up a receipt that is due. -/
def Undisturbed (config : Config)
    (entry : Interleaving.Running Request Db Statement StoreError Statement.Answer (Except StoreError Reply)) : Prop :=
  match entry.request.draftCall with
  | some c => Clear c (serial config.log).idempotency config.state entry.code
  | none => ∀ statement next, entry.code = .write statement next → ∀ k, statement.receiptKey = some k →
      (serial config.log).idempotency.find k = config.state.idempotency.find k

/-- The runs of a new store whose steps are undisturbed. -/
abbrev Unbroken (config : Config) : Prop := Restricted execute busy code Db.empty Undisturbed config

/-! ### The database and the serial execution -/

/-- The database is that of the serial execution, but for receipts that are due. -/
structure Tracks (log : List Event) (db : Db) : Prop where
  same : serial log = db.withReceipts (serial log).idempotency
  receipts : ∀ row ∈ db.idempotency, row ∈ (serial log).idempotency

section
variable {c : DraftCall} {since : Nat} {older : List Event} {event : Event} {db after : Db} {draft : Draft}
  {reply : Except StoreError Reply} {statement : Statement}

theorem serial_quiet (did : event.did = none) : serial (event :: older) = serial older := by
  rw [serial,serialStep,did]

theorem serial_own (request : event.request.draftCall = some c) (did : event.did = some statement)
    (other : statement.receiptKey = none) :
    serial (event :: older) = (c.once (serial older)).2 := by
  rw [serial,serialStep,did,request]
  cases statement with
  | recordIdempotency => exact nomatch other
  | _ => rfl

section
variable (tracks : Tracks older db)
include tracks

theorem Tracks.found {k : String × String × String} {row : ReceiptRow}
    (found : db.idempotency.find k = some row) : (serial older).idempotency.find k = some row := by
  obtain ⟨member,keyed⟩ := Table.find_eq_some.mp found
  exact Table.find_eq_some.mpr ⟨tracks.receipts row member,keyed⟩

theorem Tracks.drafts : (serial older).drafts = db.drafts := by
  rw [tracks.same]
  rfl

/-- A plain statement does to the serial execution what it does to the database. -/
theorem Tracks.plain (plain : statement.Plain) :
    execute statement (serial older) = swapped (serial older).idempotency <$> execute statement db := by
  rw [← execute_plain plain,← tracks.same]

theorem Tracks.plain_ok (plain : statement.Plain) {answer : statement.Answer}
    (executed : execute statement db = .ok (answer,after)) :
    execute statement (serial older) = .ok (answer,after.withReceipts (serial older).idempotency) := by
  rw [tracks.plain plain,executed]
  rfl

theorem Tracks.plain_error (plain : statement.Plain) {error : StoreError}
    (failed : execute statement db = .error error) : execute statement (serial older) = .error error := by
  rw [tracks.plain plain,failed]
  rfl
end

theorem Tracks.quiet (tracks : Tracks older event.before) (did : event.did = none) (still : event.after = event.before) :
    Tracks (event :: older) event.after := by
  rw [still]
  constructor
  · rw [serial_quiet did]
    exact tracks.same
  · rw [serial_quiet did]
    exact tracks.receipts

/-- The lookup of a receipt finds the same in the serial execution, where it finds one. -/
theorem Tracks.response (tracks : Tracks older db) {workspace principal k : String} (operation : String) (request : Json)
    (present : db.idempotency.find (workspace,principal,k) ≠ none) :
    idempotentResponse workspace principal k operation request (serial older) =
      idempotentResponse workspace principal k operation request db := by
  cases found : db.idempotency.find (workspace,principal,k) with
  | none => exact absurd found present
  | some row => rw [idempotentResponse,idempotentResponse,found,tracks.found found]

theorem Moment.here (request : event.request.draftCall = some c) (begun : event.since = since)
    (answer : c.once (serial older) = (reply,serial (event :: older))) : Moment c since (event :: older) reply :=
  ⟨[],event,older,rfl,request,begun,answer⟩

theorem Moment.later (moment : Moment c since older reply) (event : Event) : Moment c since (event :: older) reply := by
  obtain ⟨newer,seen,earlier,rfl,request,begun,answer⟩ := moment
  exact ⟨event :: newer,seen,earlier,rfl,request,begun,answer⟩

/-! ### The steps of a draft call -/

/-- Where a draft call stands, by what is left of it. From its effect on, the
    serial execution has answered it. -/
inductive Underway (c : DraftCall) (since : Nat) (log : List Event) :
    Call Db Statement StoreError Statement.Answer (Except StoreError Reply) → Prop
  | begun : Underway c since log (finishing c.call)
  | seeking : Underway c since log (finishing c.seek)
  | fresh : Underway c since log (finishing c.fresh)
  | copying (source target : String) (cell : CellSpec) (work : c.work = .clone source target) :
    Underway c since log (finishing (c.insertCopy target cell))
  | stale (id : String) (expectedVersion : Nat) (cell : CellSpec) (work : c.work = .edit id expectedVersion cell)
      (fits : sqlVersion expectedVersion = .ok expectedVersion) :
    Underway c since log (finishing (c.readBack id expectedVersion 0))
  | edited (id : String) (expectedVersion : Nat) (cell : CellSpec) (work : c.work = .edit id expectedVersion cell)
      (changed : Nat) (effect : changed ≠ 0)
      (answered : Moment c since log (.ok (.draft ⟨id,c.workspace,expectedVersion + 1,cell⟩))) :
    Underway c since log (finishing (c.readBack id expectedVersion changed))
  | recording (draft : Draft) (answered : Moment c since log (.ok (.draft draft))) :
    Underway c since log (finishing (c.record draft))

theorem Underway.later {code : Call Db Statement StoreError Statement.Answer (Except StoreError Reply)}
    (standing : Underway c since older code) (event : Event) : Underway c since (event :: older) code := by
  cases standing with
  | begun => exact .begun
  | seeking => exact .seeking
  | fresh => exact .fresh
  | copying source target cell work => exact .copying source target cell work
  | stale id expectedVersion cell work fits => exact .stale id expectedVersion cell work fits
  | edited id expectedVersion cell work changed effect answered =>
    exact .edited id expectedVersion cell work changed effect (answered.later event)
  | recording draft answered => exact .recording draft (answered.later event)

/-- A reply that the engine did not give is a refusal of the caller, or that of the serial execution. -/
def Justified (c : DraftCall) (log : List Event) (event : Event) (reply : Except StoreError Reply) : Prop :=
  reply = .error busy ∨
    (∃ error, (authorize c.workspace c.principal c.work.capability event.before : Except StoreError Unit) = .error error ∧
      reply = .error error) ∨
    Moment c event.since log reply

/-- What a step of a draft call leads to. -/
structure Stepped (c : DraftCall) (older : List Event) (event : Event)
    (rest : Call Db Statement StoreError Statement.Answer (Except StoreError Reply)) : Prop where
  tracks : Tracks (event :: older) event.after
  effect : serial (event :: older) = serial older ∨ ∃ draft, Effective c draft event older
  standing : rest.result? = none → Underway c event.since (event :: older) rest
  reply : ∀ reply, rest = .done reply → Justified c (event :: older) event reply

variable {rest : Call Db Statement StoreError Statement.Answer (Except StoreError Reply)}

section
variable (tracks : Tracks older event.before)
include tracks

section
variable (did : event.did = none) (still : event.after = event.before)
include did still

/-- A step without effect that does not end the call. -/
theorem Stepped.onward (unended : ∀ reply, rest ≠ .done reply) (standing : Underway c event.since (event :: older) rest) :
    Stepped c older event rest where
  tracks := tracks.quiet did still
  effect := .inl (serial_quiet did)
  standing := fun _ => standing
  reply := fun reply same => absurd same (unended reply)

/-- A step without effect that ends the call. -/
theorem Stepped.ending (justified : Justified c (event :: older) event reply) : Stepped c older event (.done reply) where
  tracks := tracks.quiet did still
  effect := .inl (serial_quiet did)
  standing := nofun
  reply := by
    rintro _ ⟨⟩
    exact justified

/-- The engine refuses a statement. -/
theorem Stepped.refused :
    Stepped c older event (.done (.error busy)) :=
  .ending tracks did still (.inl rfl)

/-- The serial execution of the call, without effect, gives its reply. -/
theorem Stepped.answered (request : event.request.draftCall = some c) (answer : c.once (serial older) = (reply,serial older)) :
    Stepped c older event (.done reply) := by
  refine .ending tracks did still (.inr (.inr ?_))
  apply Moment.here request rfl
  rw [serial_quiet did]
  exact answer
end

section
variable (request : event.request.draftCall = some c) (did : event.did = some statement)
  (other : statement.receiptKey = none)
include request did other

/-- A statement by which a new request has its effect. -/
theorem Stepped.took (written : ∃ drafts, event.after = { event.before with drafts := drafts })
    (free : (serial older).idempotency.find c.receiptKey = none)
    (once : c.once (serial older) =
      (.ok (.draft draft),event.after.withReceipts ((serial older).idempotency.insert (c.receipt draft))))
    (makes : c.Makes draft event.before) (new : draft ∈ event.after.drafts) (absent : draft ∉ event.before.drafts)
    (unended : ∀ reply, rest ≠ .done reply)
    (standing : Moment c event.since (event :: older) (.ok (.draft draft)) → Underway c event.since (event :: older) rest) :
    Stepped c older event rest := by
  have next : serial (event :: older) =
      event.after.withReceipts ((serial older).idempotency.insert (c.receipt draft)) := by
    rw [serial_own request did other,once]
  have answer : c.once (serial older) = (.ok (.draft draft),serial (event :: older)) := by rw [next,once]
  refine ⟨?_,.inr ⟨draft,request,makes,new,absent,free,answer,?_⟩,fun _ => standing (.here request rfl answer),
    fun reply same => absurd same (unended reply)⟩
  · obtain ⟨drafts,after⟩ := written
    constructor
    · rw [next]
      rfl
    · intro row member
      rw [after] at member
      rw [next]
      exact Table.mem_insert_of_mem (tracks.receipts row member)
  · rw [next]
    rfl

/-- A statement that finds nothing to change. -/
theorem Stepped.missed (still : event.after = event.before) {error : StoreError} (once : c.once (serial older) = (.error error,serial older))
    (standing : rest.result? = none → Underway c event.since (event :: older) rest)
    (ended : ∀ reply, rest = .done reply → reply = .error error) : Stepped c older event rest := by
  have same : serial (event :: older) = serial older := by rw [serial_own request did other,once]
  refine ⟨?_,.inl same,standing,fun reply last => ?_⟩
  · rw [still]
    constructor
    · rw [same]
      exact tracks.same
    · rw [same]
      exact tracks.receipts
  · rw [ended reply last]
    refine .inr (.inr (.here request rfl ?_))
    rw [same]
    exact once
end

theorem begun_step (step : Performs execute busy (finishing c.call) event.before event.did event.after rest) :
    Stepped c older event rest := by
  rw [DraftCall.call,finishing_query] at step
  obtain ⟨did,still,rfl⟩ := step.of_read
  cases authorized : (authorize c.workspace c.principal c.work.capability event.before : Except StoreError Unit) with
  | ok u =>
    rw [proceed_ok]
    exact .onward tracks did still (fun reply => by simp [DraftCall.seek,retried]) .seeking
  | error error =>
    rw [proceed_error]
    exact .ending tracks did still (.inr (.inl ⟨error,authorized,rfl⟩))

section
variable (request : event.request.draftCall = some c)
include request

theorem seeking_step (step : Performs execute busy (finishing c.seek) event.before event.did event.after rest) :
    Stepped c older event rest := by
  rw [DraftCall.seek,retried,finishing_query] at step
  obtain ⟨did,still,rfl⟩ := step.of_read
  by_cases absent : event.before.idempotency.find c.receiptKey = none
  · rw [idempotentResponse_none.mpr absent,proceed_ok]
    exact .onward tracks did still (fresh_unended c) .fresh
  · have same := tracks.response c.work.operation c.work.document absent
    have once := once_eq c (serial older)
    rw [same] at once
    cases found : idempotentResponse c.workspace c.principal c.requestKey c.work.operation c.work.document event.before with
    | error error =>
      rw [found] at once
      exact .answered tracks did still request once
    | ok recorded =>
      rw [found] at once
      cases recorded with
      | none => exact absurd (idempotentResponse_none.mp found) absent
      | some response =>
        simp only [proceed_ok,finishing_outcome]
        exact .answered tracks did still request once

theorem recording_step (answered : Moment c event.since older (.ok (.draft draft)))
    (clear : event.before.idempotency.find c.receiptKey = none ∧
      (serial older).idempotency.find c.receiptKey = some (c.receipt draft))
    (step : Performs execute busy (finishing (c.record draft)) event.before event.did event.after rest) :
    Stepped c older event rest := by
  obtain ⟨free,due⟩ := clear
  rw [DraftCall.record,finishing_submit] at step
  have recorded : execute (.recordIdempotency c.workspace c.principal c.requestKey c.work.operation c.work.document
      (.draft draft)) event.before =
        .ok ((),event.before.withReceipts (event.before.idempotency.insert (c.receipt draft))) := by
    simp only [execute,recordIdempotencyStatement,bind_ok,pure_ok]
    exact ⟨_,recordIdempotencyIn_ok.mpr ⟨free,rfl⟩,rfl⟩
  rcases step.of_write with ⟨answer,did,executed,rfl⟩ | ⟨did,still,⟨error,failed,rfl⟩ | rfl⟩
  · have same : serial (event :: older) = serial older := by
      rw [serial,serialStep,did,request]
    rw [recorded] at executed
    have after : event.after = event.before.withReceipts (event.before.idempotency.insert (c.receipt draft)) :=
      (congrArg Prod.snd (Except.ok.inj executed)).symm
    refine ⟨?_,.inl same,by rintro ⟨⟩,?_⟩
    · rw [after]
      constructor
      · rw [same,tracks.same]
        rfl
      · intro row member
        rw [same]
        rcases Table.mem_insert.mp member with old | ⟨rfl,_⟩
        · exact tracks.receipts row old
        · exact (Table.find_eq_some.mp due).1
    · rintro _ ⟨⟩
      exact .inr (.inr (answered.later event))
  · rw [recorded] at failed
    cases failed
  · exact .refused tracks did still
end

theorem create_step (request : event.request.draftCall = some c)
    {id : String} {cell : CellSpec} (work : c.work = .create id cell)
    (free : (serial older).idempotency.find c.receiptKey = none)
    (step : Performs execute busy (finishing c.fresh) event.before event.did event.after rest) :
    Stepped c older event rest := by
  have plain : Statement.Plain (.insertDraft ⟨id,c.workspace,1,cell⟩) := trivial
  have once := once_free free
  rw [DraftCall.fresh,work,run_submit] at once
  rw [DraftCall.fresh,work,finishing_submit] at step
  rcases step.of_write with ⟨inserted,did,executed,rfl⟩ | ⟨did,still,⟨error,failed,rfl⟩ | rfl⟩
  · rw [tracks.plain_ok plain executed] at once
    simp only [run_settle] at once
    rw [proceed_ok,finishing_settle]
    have made : insertDraft ⟨id,c.workspace,1,cell⟩ event.before = .ok (inserted,event.after) := executed
    by_cases taken : event.before.drafts.has (c.workspace,id)
    · simp only [insertDraft,if_pos taken,Except.ok.injEq,Prod.mk.injEq] at made
      obtain ⟨rfl,still⟩ := made
      rw [ensure_error (not_not.mpr rfl),← still,← tracks.same] at once
      rw [ensure_error (not_not.mpr rfl),proceed_error]
      refine .missed tracks request did rfl still.symm once (by rintro ⟨⟩) ?_
      rintro reply ⟨⟩
      rfl
    · simp only [insertDraft,if_neg taken,bind_ok,pure_ok,Prod.mk.injEq] at made
      obtain ⟨_,_,rfl,after⟩ := made
      have recorded := run_record (event.after.withReceipts (serial older).idempotency) free ⟨id,c.workspace,1,cell⟩
      rw [ensure_of Nat.one_ne_zero,recorded] at once
      rw [ensure_of Nat.one_ne_zero,proceed_ok]
      refine .took tracks request did rfl ⟨_,after.symm⟩ free once ?_ ?_ ?_ (record_unended c _) fun answered =>
        .recording _ answered
      · rw [DraftCall.Makes,work]
      · rw [← after]
        exact Table.mem_insert.mpr (.inr ⟨rfl,Table.not_has.mp taken⟩)
      · exact fun held => taken ⟨_,held,rfl⟩
  · rw [tracks.plain_error plain failed] at once
    exact .answered tracks did still request once
  · exact .refused tracks did still
end

/-- The read-back of a draft that was not changed fails, with the version that it has. -/
private theorem readBack_fails (c : DraftCall) (id : String) (expectedVersion : Nat) (db : Db) :
    ∃ error, (finishing (c.readBack id expectedVersion 0)).run execute db = (.error error,db) ∧
      (proceed (readDraftUnchecked c.workspace id db) fun draft => finishing (do
        settle (ensure ((0 : Nat) ≠ 0) (.staleDraft id expectedVersion draft.version))
        c.record draft)) = .done (.error error) := by
  rw [DraftCall.readBack,run_query]
  cases readDraftUnchecked c.workspace id db with
  | error error => exact ⟨error,rfl,rfl⟩
  | ok draft =>
    refine ⟨.staleDraft id expectedVersion draft.version,?_,?_⟩
    · simp only [run_settle]
      rw [ensure_error (not_not.mpr rfl)]
    · rw [proceed_ok,finishing_settle,ensure_error (not_not.mpr rfl),proceed_error]

section
variable (tracks : Tracks older event.before)
include tracks

theorem edit_step (request : event.request.draftCall = some c)
    {id : String} {expectedVersion : Nat} {cell : CellSpec} (work : c.work = .edit id expectedVersion cell)
    (free : (serial older).idempotency.find c.receiptKey = none)
    (step : Performs execute busy (finishing c.fresh) event.before event.did event.after rest) :
    Stepped c older event rest := by
  have plain : Statement.Plain (.editDraft c.workspace id expectedVersion cell) := trivial
  have once := once_free free
  rw [DraftCall.fresh,work,run_submit] at once
  rw [DraftCall.fresh,work,finishing_submit] at step
  rcases step.of_write with ⟨changed,did,executed,rfl⟩ | ⟨did,still,⟨error,failed,rfl⟩ | rfl⟩
  · rw [tracks.plain_ok plain executed] at once
    rw [proceed_ok]
    have made : editDraftStatement c.workspace id expectedVersion cell event.before = .ok (changed,event.after) := executed
    simp only [editDraftStatement,bind_ok] at made
    obtain ⟨stored,fits,made⟩ := made
    obtain ⟨_,rfl⟩ := sqlVersion_ok.mp fits
    by_cases present : ∃ row ∈ event.before.drafts.rows, row.workspaceId = c.workspace ∧ row.id = id ∧
        row.version = expectedVersion
    · rw [if_pos present] at made
      simp only [pure_ok,Prod.mk.injEq] at made
      obtain ⟨rfl,after⟩ := made
      obtain ⟨old,member,home,named,version⟩ := present
      have new : (⟨id,c.workspace,expectedVersion + 1,cell⟩ : Draft) ∈ event.after.drafts := by
        rw [← after,Table.mem_update]
        refine .inr ⟨old,member,⟨home,named,version⟩,?_⟩
        rw [home,named,version]
      have read : readDraftUnchecked c.workspace id (event.after.withReceipts (serial older).idempotency) =
          .ok ⟨id,c.workspace,expectedVersion + 1,cell⟩ :=
        require_ok.mpr (Table.find_eq_some.mpr ⟨new,rfl⟩)
      have recorded := run_record (event.after.withReceipts (serial older).idempotency) free
        ⟨id,c.workspace,expectedVersion + 1,cell⟩
      simp only [DraftCall.readBack,run_query,read,run_settle] at once
      rw [ensure_of Nat.one_ne_zero,recorded] at once
      refine .took tracks request did rfl ⟨_,after.symm⟩ free once ?_ new ?_ (readBack_unended c id expectedVersion 1)
        fun answered => .edited id expectedVersion cell work 1 Nat.one_ne_zero answered
      · rw [DraftCall.Makes,work]
      · intro held
        have one : old = ⟨id,c.workspace,expectedVersion + 1,cell⟩ :=
          Table.eq_of_key member held (Prod.ext home named)
        rw [one] at version
        exact absurd version (Nat.succ_ne_self expectedVersion)
    · rw [if_neg present] at made
      simp only [pure_ok,Prod.mk.injEq] at made
      obtain ⟨rfl,still⟩ := made
      obtain ⟨error,fails,_⟩ := readBack_fails c id expectedVersion (serial older)
      simp only [← still,← tracks.same] at once
      rw [fails] at once
      exact .missed tracks request did rfl still.symm once (fun _ => .stale id expectedVersion cell work fits)
        fun reply same => absurd same (readBack_unended c id expectedVersion 0 reply)
  · rw [tracks.plain_error plain failed] at once
    exact .answered tracks did still request once
  · exact .refused tracks did still

theorem stale_step (request : event.request.draftCall = some c)
    {id : String} {expectedVersion : Nat} {cell : CellSpec} (work : c.work = .edit id expectedVersion cell)
    (fits : sqlVersion expectedVersion = .ok expectedVersion)
    (free : (serial older).idempotency.find c.receiptKey = none)
    (other : ∀ row ∈ event.before.drafts, row.workspaceId = c.workspace → row.id = id → row.version ≠ expectedVersion)
    (step : Performs execute busy (finishing (c.readBack id expectedVersion 0)) event.before event.did event.after rest) :
    Stepped c older event rest := by
  have plain : Statement.Plain (.editDraft c.workspace id expectedVersion cell) := trivial
  have absent : ¬ ∃ row ∈ event.before.drafts.rows, row.workspaceId = c.workspace ∧ row.id = id ∧
      row.version = expectedVersion := by
    rintro ⟨row,member,home,named,version⟩
    exact other row member home named version
  have missed : execute (.editDraft c.workspace id expectedVersion cell) event.before = .ok ((0 : Nat),event.before) := by
    simp only [execute,editDraftStatement,fits,ok_bind]
    rw [if_neg absent]
    rfl
  have once := once_free free
  rw [DraftCall.fresh,work,run_submit,tracks.plain_ok plain missed] at once
  simp only [← tracks.same] at once
  obtain ⟨error,fails,ends⟩ := readBack_fails c id expectedVersion (serial older)
  rw [fails] at once
  have same : readDraftUnchecked c.workspace id event.before = readDraftUnchecked c.workspace id (serial older) := by
    rw [readDraftUnchecked,readDraftUnchecked,tracks.drafts]
  rw [DraftCall.readBack,finishing_query] at step
  obtain ⟨did,still,rfl⟩ := step.of_read
  rw [same,ends]
  exact .answered tracks did still request once

theorem edited_step {id : String} {expectedVersion changed : Nat} {cell : CellSpec}
    (effect : changed ≠ 0) (held : (⟨id,c.workspace,expectedVersion + 1,cell⟩ : Draft) ∈ event.before.drafts)
    (answered : Moment c event.since older (.ok (.draft ⟨id,c.workspace,expectedVersion + 1,cell⟩)))
    (step : Performs execute busy (finishing (c.readBack id expectedVersion changed)) event.before event.did event.after
      rest) : Stepped c older event rest := by
  have read : readDraftUnchecked c.workspace id event.before = .ok ⟨id,c.workspace,expectedVersion + 1,cell⟩ :=
    require_ok.mpr (Table.find_eq_some.mpr ⟨held,rfl⟩)
  rw [DraftCall.readBack,finishing_query] at step
  obtain ⟨did,still,rfl⟩ := step.of_read
  rw [read,proceed_ok,finishing_settle,ensure_of effect,proceed_ok]
  exact .onward tracks did still (record_unended c _) (.recording _ (answered.later event))

theorem clone_step (request : event.request.draftCall = some c)
    {source target : String} (work : c.work = .clone source target)
    (free : (serial older).idempotency.find c.receiptKey = none)
    (step : Performs execute busy (finishing c.fresh) event.before event.did event.after rest) :
    Stepped c older event rest := by
  have once := once_free free
  rw [DraftCall.fresh,work,run_query] at once
  rw [DraftCall.fresh,work,finishing_query] at step
  obtain ⟨did,still,rfl⟩ := step.of_read
  have same : readDraftUnchecked c.workspace source (serial older) = readDraftUnchecked c.workspace source event.before := by
    rw [readDraftUnchecked,readDraftUnchecked,tracks.drafts]
  rw [same] at once
  cases read : readDraftUnchecked c.workspace source event.before with
  | error error =>
    rw [read] at once
    exact .answered tracks did still request once
  | ok row =>
    rw [proceed_ok]
    exact .onward tracks did still (insertCopy_unended c target row.cell) (.copying source target row.cell work)

theorem copying_step (request : event.request.draftCall = some c)
    {source target : String} {row : Draft} (work : c.work = .clone source target)
    (free : (serial older).idempotency.find c.receiptKey = none) (member : row ∈ event.before.drafts)
    (home : row.workspaceId = c.workspace) (named : row.id = source)
    (step : Performs execute busy (finishing (c.insertCopy target row.cell)) event.before event.did event.after rest) :
    Stepped c older event rest := by
  have plain : Statement.Plain (.insertClone ⟨target,c.workspace,1,row.cell⟩) := trivial
  have once := once_free free
  have read : readDraftUnchecked c.workspace source (serial older) = .ok row := by
    rw [readDraftUnchecked,tracks.drafts]
    exact require_ok.mpr (Table.find_eq_some.mpr ⟨member,Prod.ext home named⟩)
  rw [DraftCall.fresh,work,run_query,read] at once
  simp only [DraftCall.insertCopy] at once
  rw [run_submit] at once
  rw [DraftCall.insertCopy,finishing_submit] at step
  rcases step.of_write with ⟨inserted,did,executed,rfl⟩ | ⟨did,still,⟨error,failed,rfl⟩ | rfl⟩
  · rw [tracks.plain_ok plain executed] at once
    have made : insertClone ⟨target,c.workspace,1,row.cell⟩ event.before = .ok (inserted,event.after) := executed
    simp only [insertClone,bind_ok,ensure_ok,pure_ok,Prod.mk.injEq] at made
    obtain ⟨_,taken,_,_,_,after⟩ := made
    have recorded := run_record (event.after.withReceipts (serial older).idempotency) free ⟨target,c.workspace,1,row.cell⟩
    simp only [recorded] at once
    rw [proceed_ok]
    refine .took tracks request did rfl ⟨_,after.symm⟩ free once ?_ ?_ ?_ (record_unended c _) fun answered =>
      .recording _ answered
    · rw [DraftCall.Makes,work]
      exact ⟨row,member,home,named,rfl⟩
    · rw [← after]
      exact Table.mem_insert.mpr (.inr ⟨rfl,Table.not_has.mp taken⟩)
    · exact fun held => taken ⟨_,held,rfl⟩
  · rw [tracks.plain_error plain failed] at once
    exact .answered tracks did still request once
  · exact .refused tracks did still
end

/-- Wherever a draft call stands, an undisturbed step leads on. -/
theorem Underway.step {code : Call Db Statement StoreError Statement.Answer (Except StoreError Reply)}
    (standing : Underway c event.since older code) (tracks : Tracks older event.before)
    (request : event.request.draftCall = some c) (clear : Clear c (serial older).idempotency event.before code)
    (step : Performs execute busy code event.before event.did event.after rest) : Stepped c older event rest := by
  cases standing with
  | begun => exact begun_step tracks step
  | seeking => exact seeking_step tracks request step
  | fresh =>
    have free := clear.fresh rfl
    cases work : c.work with
    | create id cell => exact create_step tracks request work free step
    | edit id expectedVersion cell => exact edit_step tracks request work free step
    | clone source target => exact clone_step tracks request work free step
  | copying source target cell work =>
    obtain ⟨free,row,member,home,named,rfl⟩ := clear.copied source target cell work rfl
    exact copying_step tracks request work free member home named step
  | stale id expectedVersion cell work fits =>
    obtain ⟨free,other⟩ := clear.stale id expectedVersion cell work rfl
    exact stale_step tracks request work fits free other step
  | edited id expectedVersion cell work changed effect answered =>
    exact edited_step tracks effect (clear.edited id expectedVersion cell changed work effect rfl) answered step
  | recording draft answered => exact recording_step tracks request answered (clear.recorded draft rfl) step

/-! ### The steps of other calls -/

/-- The statement records no draft. -/
def Statement.Foreign : Statement → Prop
  | .recordIdempotency _ _ _ operation _ _ => operation ∉ draftOperations
  | _ => True

/-- Other statements add no receipts of drafts, and only the purges delete some. -/
theorem Write.draftReceipts (write : Write statement db after) (foreign : statement.Foreign) {row : ReceiptRow}
    (draft : row.operation ∈ draftOperations) :
    (row ∈ after.idempotency → row ∈ db.idempotency) ∧
      (row ∈ db.idempotency → statement.isPurge = true ∨ row ∈ after.idempotency) := by
  have others : row.operation ≠ "candidate.build" ∧ row.operation ≠ "cell.operation.create" ∧
      row.operation ≠ "cell.update" := by
    refine ⟨?_,?_,?_⟩ <;> intro same <;> rw [same] at draft <;> exact absurd draft (by decide)
  have inserted : ∀ fresh : ReceiptRow, row.operation ≠ fresh.operation →
      (row ∈ db.idempotency.insert fresh → row ∈ db.idempotency) ∧
        (row ∈ db.idempotency → statement.isPurge = true ∨ row ∈ db.idempotency.insert fresh) := by
    intro fresh other
    constructor
    · intro member
      rcases Table.mem_insert.mp member with old | ⟨rfl,_⟩
      · exact old
      · exact absurd rfl other
    · exact fun member => .inr (Table.mem_insert_of_mem member)
  cases write with
  | receipt workspace principal k operation request response db free =>
    apply inserted
    intro same
    rw [same] at draft
    exact foreign draft
  | candidateReceipt => exact inserted _ others.1
  | removeCandidate =>
    refine ⟨fun member => (Table.mem_delete.mp member).1,fun member => .inr ?_⟩
    exact Table.mem_delete.mpr ⟨member,fun gone => others.1 gone.2.1⟩
  | repeatOperation => exact inserted _ others.2.1
  | newAction a operation cell db after admitted =>
    rw [admitted.result]
    exact inserted _ others.2.1
  | acknowledge _ _ _ _ _ _ _ db after acknowledged =>
    rw [(recordUpdateReceipt_ok.mp acknowledged.result).2]
    exact inserted _ others.2.2
  | accept _ _ _ _ _ _ _ db after accepted =>
    rw [accepted.after_eq]
    exact inserted _ others.2.2
  | purgeHandle => exact ⟨fun member => (Table.mem_delete.mp member).1,fun _ => .inl rfl⟩
  | purge => exact ⟨fun member => (Table.mem_delete.mp member).1,fun _ => .inl rfl⟩
  | _ => exact ⟨fun member => member,fun member => .inr member⟩

omit [CoreFunctions] in
theorem Alongside.subset {a now b later : Table ReceiptRow} (alongside : Alongside statement a now b later)
    (within : ∀ row ∈ a, row ∈ b) : ∀ row ∈ now, row ∈ later := by
  cases alongside with
  | same => exact within
  | insert _ fresh keyed freeA freeB =>
    intro row member
    rcases Table.mem_insert.mp member with old | ⟨rfl,_⟩
    · exact Table.mem_insert_of_mem (within row old)
    · exact Table.mem_insert.mpr (.inr ⟨rfl,freeB⟩)
  | delete _ gone only =>
    intro row member
    obtain ⟨old,stays⟩ := Table.mem_delete.mp member
    exact Table.mem_delete.mpr ⟨within row old,stays⟩

/-- A statement of another call does to the serial execution what it does to the database. -/
theorem Tracks.other (tracks : Tracks older event.before) (request : event.request.draftCall = none)
    (did : event.did = some statement) {answer : statement.Answer}
    (executed : execute statement event.before = .ok (answer,event.after))
    (alike : ∀ k, statement.receiptKey = some k → (serial older).idempotency.find k = event.before.idempotency.find k) :
    Tracks (event :: older) event.after ∧ execute statement (serial older) = .ok (answer,serial (event :: older)) := by
  obtain ⟨now,again,alongside⟩ := execute_alongside executed alike
  rw [← tracks.same] at again
  have next : serial (event :: older) = event.after.withReceipts now := by
    rw [serial,serialStep,did,request]
    simp only [again]
  refine ⟨⟨?_,?_⟩,?_⟩
  · rw [next]
    rfl
  · rw [next]
    exact alongside.subset tracks.receipts
  · rw [next]
    exact again
end

end

end Proofstorm.Store
