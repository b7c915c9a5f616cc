import Proofstorm.Store.Reads

/-!
The transactions of `cells.rs` and `previews.rs`: reserving a name, moving its
phase, and binding an absent name to a preview. A name is taken in one way only:
a handle row is written whose generation is 1 or one more than that of the
closed row before it (`Reserved`).
-/
namespace Proofstorm.Store
open Proofstorm.Core

def CellHandleRow.toHandle (row : CellHandleRow) : CellHandle :=
  ⟨row.name,row.generation,row.owner,row.configDigest,row.phase,row.instanceId⟩

/-- `cells::read`. -/
def readHandle (workspace name : String) (db : Db) : Option CellHandle :=
  (db.cellHandles.find (workspace,name)).map CellHandleRow.toHandle

/-- The first handle row of an instance. -/
def handleOf (workspace instanceId : String) (db : Db) : Option CellHandleRow :=
  db.cellHandles.rows.find? fun row => row.workspaceId = workspace ∧ row.instanceId = instanceId

/-- `format!("cell-{}", &identity[7..31])`. -/
def cellId (identity : String) : String := "cell-" ++ slice identity 7 31

/-- `INSERT INTO cell_handles … ON CONFLICT DO UPDATE` of every column. -/
def writeHandle (row : CellHandleRow) (db : Db) : Db :=
  { db with
    cellHandles := db.cellHandles.upsert row
      (fun old => { row with workspaceId := old.workspaceId, name := old.name }) (fun _ => rfl) }

/-- The transaction of `reserve_cell`. -/
def reserveCellTx [CoreFunctions] (workspace principal name configDigest nonce : String) : Txn CellHandle := fun db => do
  let existing := readHandle workspace name db
  match existing with
  | some handle =>
    ensure (¬ (handle.owner ≠ principal ∧ handle.phase = .closed))
      (.validation "cell name belongs to another principal")
    if handle.phase ≠ .closed then
      ensure (handle.configDigest = configDigest)
        (.validation "cell already exists with different configuration; close it before replacing it")
      pure (handle,db)
    else
      ensure (handle.generation + 1 < 2^32) (.validation "cell generation exhausted")
      reserve (handle.generation + 1) db
  | none => reserve 1 db
where
  reserve (generation : Nat) (db : Db) : Except StoreError (CellHandle × Db) := do
    let instanceId := cellId (digestJson (.handle workspace name generation nonce))
    ensure (db.workspaces.has workspace) foreignKey
    let after := writeHandle ⟨workspace,name,generation,principal,configDigest,.opened,instanceId⟩ db
    let handle ← require (readHandle workspace name after) (.validation "reserved cell disappeared")
    pure (handle,after)

/-- The transaction of `set_cell_phase`. -/
def setCellPhaseTx (workspace principal : String) (handle : CellHandle) (phase : CellHandlePhase) : Txn Unit := fun db => do
  let current ← require (readHandle workspace handle.name db) (.notFound "cell" handle.name)
  ensure (¬ (current.owner ≠ principal ∨ current.generation ≠ handle.generation))
    (.validation "cell owner or generation changed")
  if current.phase ≠ .closed then
    pure ((),{ db with
      cellHandles := db.cellHandles.update (fun row => row.workspaceId = workspace ∧ row.name = handle.name)
        (fun row => { row with phase := phase }) (fun _ => rfl) })
  else pure ((),db)

/-- The statement of `save_cell_preview`. -/
def insertPreview (workspace principal : String) (preview : CellPreview) : Txn Unit := fun db =>
  .ok ((),{ db with cellPreviews := db.cellPreviews.insert ⟨workspace,principal,preview.id,preview⟩ })

/-- The statement of `bind_cell_submission`. -/
def insertSubmission (workspace principal requestId previewId digest : String) : Txn Unit := fun db =>
  .ok ((),{ db with
    cellSubmissionRequests := db.cellSubmissionRequests.insert ⟨workspace,principal,requestId,previewId,digest⟩ })

/-- The transaction of `reserve_preview`. -/
def reservePreviewTx [CoreFunctions] (workspace principal : String) (preview : CellPreview) (nonce : String) :
    Txn CellHandle := fun db => do
  let current := readHandle workspace preview.name db
  match db.previewAdmissions.find (workspace,principal,preview.id) with
  | some previous =>
    let handle ← require (current.filter fun cell => cell.instanceId = previous.instanceId ∧ cell.phase = .opened)
      (.cellUpdate "stale_incarnation"
        "This creation was already admitted and its cell was removed or replaced; use a new request_id")
    pure (handle,db)
  | none =>
    ensure (¬ (current.isSome ∨ db.instances.has (workspace,preview.name))) (.cellUpdate "cell_update_conflict"
      "The preview expected an absent name; inspect the current cell and prepare a fenced update")
    let id := cellId (digestJson (.nonce workspace preview.name nonce))
    let configDigest := digestJson (.cell preview.cell)
    ensure (db.workspaces.has workspace) foreignKey
    let after := writeHandle ⟨workspace,preview.name,1,principal,configDigest,.opened,id⟩ db
    let after := { after with
      previewAdmissions := after.previewAdmissions.insert ⟨workspace,principal,preview.id,id⟩ }
    let handle ← require (readHandle workspace preview.name after) (.validation "inserted cell handle is missing")
    pure (handle,after)

/-! ### What the transactions can do -/

variable {db : Db} {handle : CellHandle}

theorem readHandle_eq_some {workspace name : String} :
    readHandle workspace name db = some handle ↔
      ∃ row ∈ db.cellHandles, row.workspaceId = workspace ∧ row.name = name ∧ row.toHandle = handle := by
  simp only [readHandle,Option.map_eq_some_iff,Table.find_eq_some]
  constructor
  · rintro ⟨row,⟨member,keyed⟩,same⟩
    exact ⟨row,member,congrArg Prod.fst keyed,congrArg Prod.snd keyed,same⟩
  · rintro ⟨row,member,rfl,rfl,same⟩
    exact ⟨row,⟨member,rfl⟩,same⟩

theorem handleOf_eq_some {workspace instanceId : String} {row : CellHandleRow}
    (found : handleOf workspace instanceId db = some row) :
    row ∈ db.cellHandles ∧ row.workspaceId = workspace ∧ row.instanceId = instanceId :=
  ⟨List.mem_of_find?_eq_some found,by simpa using List.find?_some found⟩

/-- The rows after a handle is written: it replaces the row of its name. -/
theorem mem_writeHandle {row other : CellHandleRow} :
    other ∈ (writeHandle row db).cellHandles ↔
      other = row ∨ (other ∈ db.cellHandles ∧ ¬ (other.workspaceId = row.workspaceId ∧ other.name = row.name)) := by
  have keyed : ∀ r : CellHandleRow, key r = key row ↔ r.workspaceId = row.workspaceId ∧ r.name = row.name :=
    fun r => by simp [key]
  simp only [writeHandle,Table.mem_upsert,keyed]
  constructor
  · rintro (⟨member,different⟩ | ⟨old,_,⟨home,name⟩,rfl⟩ | ⟨rfl,_⟩)
    · exact .inr ⟨member,(keyed _).not.mp different⟩
    · exact .inl (by cases row; simp_all)
    · exact .inl rfl
  · rintro (rfl | ⟨member,different⟩)
    · cases taken : db.cellHandles.find (key other) with
      | none => exact .inr (.inr ⟨rfl,rfl⟩)
      | some old =>
        obtain ⟨member,same⟩ := Table.find_eq_some.mp taken
        have home := congrArg Prod.fst same
        have name := congrArg Prod.snd same
        refine .inr (.inl ⟨old,member,⟨home,name⟩,?_⟩)
        cases other
        simp_all [key]
    · exact .inl ⟨member,(keyed _).not.mpr different⟩

theorem readHandle_writeHandle (row : CellHandleRow) (db : Db) :
    readHandle row.workspaceId row.name (writeHandle row db) = some row.toHandle :=
  readHandle_eq_some.mpr ⟨row,mem_writeHandle.mpr (.inl rfl),rfl,rfl,rfl⟩

/-- A name was taken: a new open row for it, over an absent or a closed one. -/
structure Reserved (row : CellHandleRow) (db : Db) : Prop where
  opened : row.phase = .opened
  taken : (readHandle row.workspaceId row.name db = none ∧ row.generation = 1) ∨
    ∃ old, readHandle row.workspaceId row.name db = some old ∧ old.owner = row.owner ∧ old.phase = .closed ∧
      row.generation = old.generation + 1

theorem reserveCellTx_ok [CoreFunctions] {workspace principal name configDigest nonce : String} {db after : Db}
    {handle : CellHandle} (reserved : reserveCellTx workspace principal name configDigest nonce db = .ok (handle,after)) :
    (after = db ∧ readHandle workspace name db = some handle) ∨
      ∃ row : CellHandleRow, row.workspaceId = workspace ∧ row.name = name ∧ row.owner = principal ∧
        row.instanceId = cellId (digestJson (.handle workspace name row.generation nonce)) ∧
        Reserved row db ∧ after = writeHandle row db ∧ handle = row.toHandle := by
  have fresh : ∀ generation, reserveCellTx.reserve workspace principal name configDigest nonce generation db =
      .ok (handle,after) → ∃ row : CellHandleRow, row.workspaceId = workspace ∧ row.name = name ∧
        row.owner = principal ∧ row.generation = generation ∧ row.phase = .opened ∧
        row.instanceId = cellId (digestJson (.handle workspace name row.generation nonce)) ∧
        after = writeHandle row db ∧ handle = row.toHandle := by
    intro generation made
    simp only [reserveCellTx.reserve,bind_ok,ensure_ok,require_ok,pure_ok,Prod.mk.injEq] at made
    obtain ⟨_,_,_,seen,rfl,rfl⟩ := made
    have written := readHandle_writeHandle ⟨workspace,name,generation,principal,configDigest,.opened,
      cellId (digestJson (.handle workspace name generation nonce))⟩ db
    exact ⟨_,rfl,rfl,rfl,rfl,rfl,rfl,rfl,Option.some.inj (seen.symm.trans written)⟩
  simp only [reserveCellTx] at reserved
  cases existing : readHandle workspace name db with
  | none =>
    simp only [existing] at reserved
    obtain ⟨row,rfl,rfl,rfl,generation,opened,id,written,same⟩ := fresh 1 reserved
    exact .inr ⟨row,rfl,rfl,rfl,id,⟨opened,.inl ⟨existing,generation⟩⟩,written,same⟩
  | some current =>
    simp only [existing,bind_ok,ensure_ok] at reserved
    obtain ⟨_,owner,reserved⟩ := reserved
    split at reserved
    · simp only [bind_ok,ensure_ok,pure_ok,Prod.mk.injEq] at reserved
      obtain ⟨_,_,rfl,rfl⟩ := reserved
      exact .inl ⟨rfl,rfl⟩
    · rename_i closed
      simp only [bind_ok,ensure_ok] at reserved
      obtain ⟨_,_,reserved⟩ := reserved
      obtain ⟨row,rfl,rfl,rfl,generation,opened,id,written,same⟩ := fresh _ reserved
      have shut := not_not.mp closed
      refine .inr ⟨row,rfl,rfl,rfl,id,⟨opened,.inr ⟨current,existing,?_,shut,generation⟩⟩,written,same⟩
      by_contra other
      exact owner ⟨other,shut⟩

theorem setCellPhaseTx_ok {workspace principal : String} {phase : CellHandlePhase} {after : Db}
    {u : Unit} : setCellPhaseTx workspace principal handle phase db = .ok (u,after) ↔
    ∃ row ∈ db.cellHandles, row.workspaceId = workspace ∧ row.name = handle.name ∧ row.owner = principal ∧
      row.generation = handle.generation ∧
        ((row.phase = .closed ∧ after = db) ∨ (row.phase ≠ .closed ∧ after = { db with
          cellHandles := db.cellHandles.update (fun row => row.workspaceId = workspace ∧ row.name = handle.name)
            (fun row => { row with phase := phase }) (fun _ => rfl) })) := by
  simp only [setCellPhaseTx,bind_ok,ensure_ok,require_ok]
  constructor
  · rintro ⟨current,read,_,fenced,set⟩
    obtain ⟨row,member,home,name,rfl⟩ := readHandle_eq_some.mp read
    obtain ⟨owner,generation⟩ := not_or.mp fenced
    refine ⟨row,member,home,name,not_not.mp owner,not_not.mp generation,?_⟩
    split at set
    · rename_i open_
      simp only [pure_ok,Prod.mk.injEq] at set
      exact .inr ⟨open_,set.2.symm⟩
    · rename_i closed
      simp only [pure_ok,Prod.mk.injEq] at set
      exact .inl ⟨not_not.mp closed,set.2.symm⟩
  · rintro ⟨row,member,home,name,rfl,same,outcome⟩
    refine ⟨row.toHandle,readHandle_eq_some.mpr ⟨row,member,home,name,rfl⟩,⟨⟩,?_,?_⟩
    · simp [CellHandleRow.toHandle,same]
    · rcases outcome with ⟨closed,rfl⟩ | ⟨open_,rfl⟩
      · exact if_neg (not_not.mpr closed)
      · exact if_pos open_

theorem reservePreviewTx_ok [CoreFunctions] {workspace principal nonce : String} {preview : CellPreview} {db after : Db}
    {handle : CellHandle} (reserved : reservePreviewTx workspace principal preview nonce db = .ok (handle,after)) :
    (after = db ∧ readHandle workspace preview.name db = some handle) ∨
      ∃ row : CellHandleRow, row.workspaceId = workspace ∧ row.name = preview.name ∧ row.owner = principal ∧
        row.generation = 1 ∧ row.instanceId = cellId (digestJson (.nonce workspace preview.name nonce)) ∧
        Reserved row db ∧ db.previewAdmissions.find (workspace,principal,preview.id) = none ∧
        after = { writeHandle row db with
          previewAdmissions := db.previewAdmissions.insert ⟨workspace,principal,preview.id,row.instanceId⟩ } ∧
        handle = row.toHandle := by
  simp only [reservePreviewTx] at reserved
  cases admitted : db.previewAdmissions.find (workspace,principal,preview.id) with
  | some previous =>
    simp only [admitted,bind_ok,require_ok,pure_ok,Prod.mk.injEq] at reserved
    obtain ⟨_,current,rfl,rfl⟩ := reserved
    exact .inl ⟨rfl,(Option.filter_eq_some_iff.mp current).1⟩
  | none =>
    simp only [admitted,bind_ok,ensure_ok,require_ok,pure_ok,Prod.mk.injEq] at reserved
    obtain ⟨_,absent,_,_,_,seen,rfl,rfl⟩ := reserved
    obtain ⟨free,_⟩ := not_or.mp absent
    have written := readHandle_writeHandle ⟨workspace,preview.name,1,principal,digestJson (.cell preview.cell),.opened,
      cellId (digestJson (.nonce workspace preview.name nonce))⟩ db
    exact .inr ⟨_,rfl,rfl,rfl,rfl,rfl,⟨rfl,.inl ⟨by simpa using free,rfl⟩⟩,rfl,rfl,
      Option.some.inj (seen.symm.trans written)⟩
end Proofstorm.Store
