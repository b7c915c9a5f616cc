import Proofstorm.Store.Frames

/-!
The three calls that write drafts. `create_draft`, `edit_draft` and `clone_draft`
have one shape: a retry is answered from its receipt, and a new request changes
the drafts and then records a receipt, with a statement for each. `once` is such
a call as the one step that it stands for, and `serial` the execution in which
every change of the drafts is made by such a step, in the order of the changes.
-/
namespace Proofstorm.Store
open Proofstorm.Core
open Proofstorm.Interleaving (Call query submit settle proceed query_bind submit_bind settle_bind)

inductive DraftWork
  | create (id : String) (cell : CellSpec)
  | edit (id : String) (expectedVersion : Nat) (cell : CellSpec)
  | clone (source target : String)
  deriving DecidableEq

structure DraftCall where
  workspace : String
  principal : String
  requestKey : String
  work : DraftWork
  deriving DecidableEq

def Request.draftCall : Request → Option DraftCall
  | .createDraft workspace principal id cell key => some ⟨workspace,principal,key,.create id cell⟩
  | .editDraft workspace principal id expectedVersion cell key =>
    some ⟨workspace,principal,key,.edit id expectedVersion cell⟩
  | .cloneDraft workspace principal source target key => some ⟨workspace,principal,key,.clone source target⟩
  | _ => none

theorem Request.draftCall_inj {a b : Request} {c : DraftCall} (left : a.draftCall = some c) (right : b.draftCall = some c) :
    a = b := by
  cases a with
  | createDraft | editDraft | cloneDraft =>
    cases left
    cases b <;> cases right
    rfl
  | _ => exact nomatch left

/-- The operations under which drafts are recorded. -/
def draftOperations : List String := ["cell.create","cell.edit","cell.clone"]

namespace DraftWork

def operation : DraftWork → String
  | .create .. => "cell.create"
  | .edit .. => "cell.edit"
  | .clone .. => "cell.clone"

def capability : DraftWork → Capability
  | .create .. => .cellCreate
  | .edit .. => .cellEdit
  | .clone .. => .cellClone

/-- The request as its receipt digests it. -/
def document [CoreFunctions] : DraftWork → Json
  | .create id cell => .object [("id",.str id),("cell",CoreFunctions.cellJson cell)]
  | .edit id expectedVersion cell => .object [("id",.str id),("expectedVersion",.num (toString expectedVersion)),
      ("cell",CoreFunctions.cellJson cell)]
  | .clone source target => .object [("source",.str source),("target",.str target)]

theorem operation_mem (work : DraftWork) : work.operation ∈ draftOperations := by
  cases work <;> simp [operation,draftOperations]

end DraftWork

/-- The end of a call that answers with a draft. -/
def finishing (rest : Program Draft) : Call Db Statement StoreError Statement.Answer (Except StoreError Reply) :=
  (do return Reply.draft (← rest) : Program Reply).run

section
variable {α : Type}

@[simp] theorem finishing_query (f : Db → Except StoreError α) (k : α → Program Draft) :
    finishing (query f >>= k) = .read fun db => proceed (f db) fun value => finishing (k value) := by
  rw [finishing,bind_assoc,query_bind]
  rfl

@[simp] theorem finishing_submit (statement : Statement) (k : statement.Answer → Program Draft) :
    finishing (exec statement >>= k) = .write statement fun answer => proceed answer fun value => finishing (k value) := by
  rw [finishing,bind_assoc,submit_bind]
  rfl

@[simp] theorem finishing_settle (outcome : Except StoreError α) (k : α → Program Draft) :
    finishing (settle outcome >>= k) = proceed outcome fun value => finishing (k value) := by
  rw [finishing,bind_assoc,settle_bind]
  rfl

@[simp] theorem finishing_outcome (outcome : Except StoreError Draft) :
    finishing (settle outcome) = .done (outcome.map Reply.draft) := by
  cases outcome <;> rfl
end

section
variable [CoreFunctions]

namespace DraftCall

variable (c : DraftCall)

def receiptKey : String × String × String := (c.workspace,c.principal,c.requestKey)

def receipt (draft : Draft) : ReceiptRow :=
  ⟨c.workspace,c.principal,c.requestKey,c.work.operation,digestJson (.json c.work.document),.draft draft⟩

/-! ### What is left of a call -/

def record (draft : Draft) : Program Draft := do
  exec (.recordIdempotency c.workspace c.principal c.requestKey c.work.operation c.work.document (.draft draft))
  pure draft

/-- After the `UPDATE` of an edit. -/
def readBack (id : String) (expectedVersion changed : Nat) : Program Draft := do
  let draft ← query (readDraftUnchecked c.workspace id)
  settle (ensure (changed ≠ 0) (.staleDraft id expectedVersion draft.version))
  c.record draft

/-- After a clone has read its source. -/
def insertCopy (target : String) (cell : CellSpec) : Program Draft := do
  exec (.insertClone ⟨target,c.workspace,1,cell⟩)
  c.record ⟨target,c.workspace,1,cell⟩

/-- After no receipt was found. -/
def fresh : Program Draft :=
  match c.work with
  | .create id cell => do
    let inserted : Nat ← exec (.insertDraft ⟨id,c.workspace,1,cell⟩)
    settle (ensure (inserted ≠ 0) (.conflict "draft" id))
    c.record ⟨id,c.workspace,1,cell⟩
  | .edit id expectedVersion cell => do
    let changed : Nat ← exec (.editDraft c.workspace id expectedVersion cell)
    c.readBack id expectedVersion changed
  | .clone source target => do
    let source ← query (readDraftUnchecked c.workspace source)
    c.insertCopy target source.cell

/-- After the caller was authorized. -/
def seek : Program Draft :=
  retried c.workspace c.principal c.requestKey c.work.operation c.work.document (fun response => settle response.asDraft)
    c.fresh

def call : Program Draft := do
  query (authorize c.workspace c.principal c.work.capability)
  c.seek
end DraftCall

theorem code_draftCall {request : Request} {c : DraftCall} (same : request.draftCall = some c) :
    code request = finishing c.call := by
  cases request with
  | createDraft | editDraft | cloneDraft =>
    cases same
    rfl
  | _ => exact nomatch same

theorem fresh_unended (c : DraftCall) (reply : Except StoreError Reply) : finishing c.fresh ≠ .done reply := by
  rw [DraftCall.fresh]
  cases c.work with
  | create | edit =>
    rw [finishing_submit]
    exact nofun
  | clone =>
    rw [finishing_query]
    exact nofun

theorem record_unended (c : DraftCall) (draft : Draft) (reply : Except StoreError Reply) :
    finishing (c.record draft) ≠ .done reply := by
  rw [DraftCall.record,finishing_submit]
  exact nofun

theorem readBack_unended (c : DraftCall) (id : String) (expectedVersion changed : Nat) (reply : Except StoreError Reply) :
    finishing (c.readBack id expectedVersion changed) ≠ .done reply := by
  rw [DraftCall.readBack,finishing_query]
  exact nofun

theorem insertCopy_unended (c : DraftCall) (target : String) (cell : CellSpec) (reply : Except StoreError Reply) :
    finishing (c.insertCopy target cell) ≠ .done reply := by
  rw [DraftCall.insertCopy,finishing_submit]
  exact nofun

/-! ### One step -/

/-- The call as one step, together with its receipt, once its caller is authorized. -/
def DraftCall.once (c : DraftCall) : Db → Except StoreError Reply × Db := (finishing c.seek).run execute

/-- What an event adds to the serial execution. A draft call adds its whole step
    where it executes a statement on the drafts, and its receipt is recorded with it. -/
def serialStep (event : Event) (db : Db) : Db :=
  match event.did, event.request.draftCall with
  | none, _ | some (.recordIdempotency ..), some _ => db
  | some _, some c => (c.once db).2
  | some statement, none =>
    match execute statement db with
    | .ok (_,after) => after
    | .error _ => db

/-- The serial execution of a run. -/
def serial : List Event → Db
  | [] => Db.empty
  | event :: older => serialStep event (serial older)

section
variable {c : DraftCall} {db after : Db} {draft : Draft} {reply : Except StoreError Reply}

/-- A call that is left with reads, statements and outcomes, run on its own. -/
theorem run_query {α : Type} (f : Db → Except StoreError α) (k : α → Program Draft) (db : Db) :
    (finishing (query f >>= k)).run execute db =
      match f db with
      | .ok value => (finishing (k value)).run execute db
      | .error error => (.error error,db) := by
  rw [finishing_query,Call.run]
  cases f db <;> rfl

theorem run_submit (statement : Statement) (k : statement.Answer → Program Draft) (db : Db) :
    (finishing (exec statement >>= k)).run execute db =
      match execute statement db with
      | .ok (value,after) => (finishing (k value)).run execute after
      | .error error => (.error error,db) := by
  rw [finishing_submit,Call.run]
  cases execute statement db <;> rfl

theorem run_settle {α : Type} (outcome : Except StoreError α) (k : α → Program Draft) (db : Db) :
    (finishing (settle outcome >>= k)).run execute db =
      match outcome with
      | .ok value => (finishing (k value)).run execute db
      | .error error => (.error error,db) := by
  rw [finishing_settle]
  cases outcome <;> rfl

theorem run_record (db : Db) (free : db.idempotency.find c.receiptKey = none) (draft : Draft) :
    (finishing (c.record draft)).run execute db =
      (.ok (.draft draft),db.withReceipts (db.idempotency.insert (c.receipt draft))) := by
  have recorded : execute (.recordIdempotency c.workspace c.principal c.requestKey c.work.operation c.work.document
      (.draft draft)) db = .ok ((),db.withReceipts (db.idempotency.insert (c.receipt draft))) := by
    simp only [execute,recordIdempotencyStatement,bind_ok,pure_ok]
    exact ⟨_,recordIdempotencyIn_ok.mpr ⟨free,rfl⟩,rfl⟩
  rw [DraftCall.record,run_submit,recorded]
  rfl

/-- The lookup of a receipt. -/
theorem once_eq (c : DraftCall) (db : Db) : c.once db =
    match idempotentResponse c.workspace c.principal c.requestKey c.work.operation c.work.document db with
    | .ok (some response) => (response.asDraft.map Reply.draft,db)
    | .ok none => (finishing c.fresh).run execute db
    | .error error => (.error error,db) := by
  rw [DraftCall.once,DraftCall.seek,retried,run_query]
  cases idempotentResponse c.workspace c.principal c.requestKey c.work.operation c.work.document db with
  | error error => rfl
  | ok found =>
    cases found with
    | none => rfl
    | some response =>
      simp only [finishing_outcome]
      rfl

theorem once_free (free : db.idempotency.find c.receiptKey = none) : c.once db = (finishing c.fresh).run execute db := by
  rw [once_eq,idempotentResponse_none.mpr free]

private theorem run_record_ok {made : Draft} (ended : (finishing (c.record made)).run execute db = (.ok (.draft draft),after)) :
    c.receipt draft ∈ after.idempotency := by
  rw [DraftCall.record,run_submit] at ended
  split at ended
  · rename_i u middle recorded
    obtain ⟨free,rfl⟩ := recordIdempotencyStatement_ok recorded
    cases ended
    exact Table.mem_insert.mpr (.inr ⟨rfl,free⟩)
  · exact nomatch ended

/-- A new request that succeeds ends with its receipt. -/
private theorem run_fresh_ok (ended : (finishing c.fresh).run execute db = (.ok (.draft draft),after)) :
    c.receipt draft ∈ after.idempotency := by
  cases work : c.work with
  | create id cell =>
    rw [DraftCall.fresh,work,run_submit] at ended
    split at ended
    · simp only [run_settle] at ended
      split at ended
      · exact run_record_ok ended
      · cases ended
    · cases ended
  | edit id expectedVersion cell =>
    rw [DraftCall.fresh,work,run_submit] at ended
    split at ended
    · simp only [DraftCall.readBack,run_query] at ended
      split at ended
      · simp only [run_settle] at ended
        split at ended
        · exact run_record_ok ended
        · cases ended
      · cases ended
    · cases ended
  | clone source target =>
    rw [DraftCall.fresh,work,run_query] at ended
    split at ended
    · simp only [DraftCall.insertCopy] at ended
      rw [run_submit] at ended
      split at ended
      · exact run_record_ok ended
      · cases ended
    · cases ended

/-- Wherever the whole call succeeds, its receipt is there afterwards. -/
theorem once_ok (ended : c.once db = (.ok (.draft draft),after)) : c.receipt draft ∈ after.idempotency := by
  rw [once_eq] at ended
  split at ended
  · rename_i response found
    rw [idempotentResponse] at found
    cases known : db.idempotency.find (c.workspace,c.principal,c.requestKey) with
    | none =>
      rw [known] at found
      cases found
    | some row =>
      obtain ⟨member,keyed⟩ := Table.find_eq_some.mp known
      simp only [known] at found
      split at found
      · cases found
      · rename_i same
        obtain ⟨operation,digest⟩ := not_or.mp same
        cases found
        cases recorded : row.response with
        | draft stored =>
          rw [recorded] at ended
          cases ended
          have one : row = c.receipt draft := by
            cases row
            simp only [key,Prod.mk.injEq,not_not] at keyed operation digest recorded
            obtain ⟨rfl,rfl,rfl⟩ := keyed
            rw [operation,digest,recorded]
            rfl
          exact one ▸ member
        | _ =>
          rw [recorded] at ended
          cases ended
  · exact run_fresh_ok ended
  · cases ended
end

end

end Proofstorm.Store
