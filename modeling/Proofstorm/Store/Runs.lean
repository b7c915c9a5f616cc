import Proofstorm.Store.Cells

/-!
The transactions of `runs.rs`, `sessions.rs` and `workspace_evidence.rs`, and
those of `lib.rs` that open and close a run. A run is opened in one way
(`insertRun`) and closed together with its seal; a session row is created by
`track_session` alone, which never gives away a row that is there
(`searchSession_found`, `searchSession_free`).
-/
namespace Proofstorm.Store
open Proofstorm.Core

/-- `runs::next_run`: the principal's open automatic run, or the ordinal and id of the next one. -/
def nextRun [CoreFunctions] (workspace instanceKey principal : String) (db : Db) : Except StoreError (Nat × String) :=
  let fresh (ordinal : Nat) := (ordinal,"run-" ++ slice (digestJson (.run workspace instanceKey principal ordinal)) 7 39)
  match db.automaticRuns.find (workspace,instanceKey,principal) with
  | none => .ok (fresh 0)
  | some run =>
    match (db.experiments.find (workspace,run.id)).map Experiment.phase with
    | some .active => .ok (run.ordinal,run.id)
    | _ =>
      if run.ordinal + 1 < versionLimit then .ok (fresh (run.ordinal + 1))
      else .error (.validation "run sequence exhausted")

/-- `INSERT OR IGNORE INTO experiments` of an active run: how many rows it inserted. -/
def insertRun (run : Experiment) (db : Db) : Except StoreError (Nat × Db) :=
  if db.experiments.has (run.workspaceId,run.id) then .ok (0,db)
  else do
    ensure (db.workspaces.has run.workspaceId ∧ db.instances.has (run.workspaceId,run.instanceId) ∧
      db.principals.has run.ownerPrincipalId) foreignKey
    pure (1,{ db with experiments := db.experiments.insert run })

/-- The statement of `create_experiment`. -/
def insertExperiment (run : Experiment) : Txn Nat := insertRun run

/-- The transaction of `ensure_implicit_run`. -/
def ensureImplicitRunTx [CoreFunctions] (workspace principal instanceId id : String) (now : Int) : Txn Unit := fun db => do
  let row ← require (db.instances.find (workspace,instanceId)) noRows
  let (ordinal,expected) ← nextRun workspace row.instanceKey principal db
  ensure (id = expected)
    (.validation "cell incarnation changed during run admission; read current cell and retry")
  let closing := (∃ handle ∈ db.cellHandles.rows,
      handle.workspaceId = workspace ∧ handle.instanceId = instanceId ∧ handle.phase ≠ .opened) ∨
    (updateState workspace instanceId db).closing = true
  ensure (¬ closing) (.validation "cell is closing; new actions are not admitted")
  let (_,db) ← insertRun ⟨id,workspace,instanceId,principal,.active,now,none⟩ db
  pure ((),{ db with
    automaticRuns := db.automaticRuns.upsert ⟨workspace,row.instanceKey,principal,ordinal,id⟩
      (fun old => { old with ordinal := ordinal, id := id }) (fun _ => rfl) })

/-- The transaction of `close_experiment`. -/
def closeExperimentTx (workspace id : String) (now : Int) : Txn Unit := fun db => do
  let active := db.actions.rows.filter fun action =>
    action.workspaceId = workspace ∧ action.experimentId = id ∧ action.phase.active
  ensure (active = []) (.validation "run has active operations; wait before finishing")
  let run ← require (db.experiments.find (workspace,id)) noRows
  let row ← require (db.instances.find (workspace,run.instanceId)) noRows
  let cell : CellInstance :=
    { generation := (updateState workspace run.instanceId db).generation
      id := run.instanceId
      workspaceId := workspace
      revisionDigest := row.revisionDigest
      lockDigest := row.lockDigest
      instanceKey := row.instanceKey
      resourceName := row.resourceName }
  let revision ← require (revisionIn workspace row.revisionDigest db) noRows
  pure ((),{ db with
    runSeals := db.runSeals.insert ⟨workspace,id,cell,revision.revision⟩
    experiments := db.experiments.update (fun row => row.workspaceId = workspace ∧ row.id = id)
      (fun row => { row with phase := .closed, closedAtUnix := row.closedAtUnix.or (some now) }) (fun _ => rfl) })

/-! ### Sessions -/

/-- `format!("session-{}", &digest[7..39])`. -/
def sessionId (digest : String) : String := "session-" ++ slice digest 7 39

/-- What the loop of `track_session` ends with: an open session of the caller, or an id that is free. -/
inductive SessionSearch
  | found (session : Session)
  | free (id : String)

/-- The loop of `track_session`, for at most `fuel` rows. -/
def searchSession [CoreFunctions] (workspace principal experiment requested context : String) (db : Db) :
    Nat → String → Nat → Option SessionSearch
  | 0, _, _ => none
  | fuel+1, id, generation =>
    match db.sessions.find (workspace,id) with
    | none => some (.free id)
    | some existing =>
      if existing.principalId = principal ∧ existing.experimentId = experiment ∧ existing.finishedAtUnix = none then
        some (.found existing)
      else
        -- A caller-supplied id is attribution, never permission to impersonate.
        searchSession workspace principal experiment requested context db fuel
          (sessionId (digestJson (.interval requested context (generation + 1)))) (generation + 1)

/-- The transaction of `track_session`, from the id it first tries. A derived id
    comes again only where two digests coincide, so that the derived ids have run
    through all rows when the fuel is spent. -/
def trackSessionTx [CoreFunctions] (workspace principal experiment instanceId requested context id : String)
    (now : Int) : Txn Session := fun db => do
  let search ← require
    (searchSession workspace principal experiment requested context db (db.sessions.rows.length + 2) id 0)
    (.database "interrupted")
  match search with
  | .found existing => pure (existing,db)
  | .free id =>
    ensure (db.workspaces.has workspace ∧ db.principals.has principal ∧ db.experiments.has (workspace,experiment) ∧
      db.instances.has (workspace,instanceId)) foreignKey
    let session : Session := ⟨id,workspace,experiment,instanceId,principal,.active,now,now,none⟩
    pure (session,{ db with sessions := db.sessions.insert session })

/-- `UPDATE sessions SET phase_json='"finished"'` of the chosen rows. -/
def finishSessions (chosen : Session → Prop) [DecidablePred chosen] (now : Int) : Txn Unit := fun db =>
  .ok ((),{ db with
    sessions := db.sessions.update chosen
      (fun row => { row with phase := .finished, finishedAtUnix := row.finishedAtUnix.or (some now) }) (fun _ => rfl) })

/-- `UPDATE sessions SET last_activity_at=MAX(last_activity_at,?)`. -/
def touchSession (workspace id : String) (now : Int) (db : Db) : Db :=
  { db with
    sessions := db.sessions.update (fun row => row.workspaceId = workspace ∧ row.id = id)
      (fun row => { row with lastActivityAtUnix := max row.lastActivityAtUnix now }) (fun _ => rfl) }

theorem mem_touchSession {workspace id : String} {now : Int} {db : Db} {row : Session} :
    row ∈ (touchSession workspace id now db).sessions ↔
      (row ∈ db.sessions ∧ ¬ (row.workspaceId = workspace ∧ row.id = id)) ∨
        ∃ old ∈ db.sessions, (old.workspaceId = workspace ∧ old.id = id) ∧
          row = { old with lastActivityAtUnix := max old.lastActivityAtUnix now } :=
  Table.mem_update (by exact fun _ => rfl)

/-! ### Captures -/

/-- The transaction of `record_workspace_capture`. -/
def recordCaptureTx (workspace principal requestDigest : String) (evidence : WorkspaceEvidence) :
    Txn WorkspaceEvidence := fun db => do
  let content := evidence.content
  match db.workspaceEvidence.find (workspace,content.captureId) with
  | some previous =>
    ensure (¬ (previous.principalId ≠ principal ∨ previous.requestDigest ≠ requestDigest))
      (.idempotencyConflict content.captureId)
    pure (previous.evidence,db)
  | none =>
    let runState := do
      let run ← db.experiments.find (workspace,content.runId)
      let row ← db.instances.find (workspace,run.instanceId)
      pure (run.phase,run.instanceId,row.instanceKey,row.revisionDigest)
    ensure (runState = some (.active,content.instanceId,content.instanceKey,content.revisionDigest)) (.validation
      "capture requires an open run in the same unchanged cell incarnation and revision")
    pure (evidence,{ db with
      workspaceEvidence := db.workspaceEvidence.insert
        ⟨workspace,content.captureId,content.runId,principal,requestDigest,evidence⟩ })

/-! ### What the transactions can do -/

theorem insertRun_ok {run : Experiment} {db after : Db} {count : Nat} (inserted : insertRun run db = .ok (count,after)) :
    (after = db ∧ count = 0 ∧ db.experiments.has (run.workspaceId,run.id)) ∨
      (count = 1 ∧ db.experiments.find (run.workspaceId,run.id) = none ∧
        db.instances.has (run.workspaceId,run.instanceId) ∧ db.principals.has run.ownerPrincipalId ∧
        after = { db with experiments := db.experiments.insert run }) := by
  rw [insertRun] at inserted
  split at inserted
  · rename_i taken
    simp only [Except.ok.injEq,Prod.mk.injEq] at inserted
    exact .inl ⟨inserted.2.symm,inserted.1.symm,taken⟩
  · rename_i free
    simp only [bind_ok,ensure_ok,pure_ok,Prod.mk.injEq] at inserted
    obtain ⟨_,⟨_,held,owner⟩,rfl,rfl⟩ := inserted
    exact .inr ⟨rfl,Table.not_has.mp free,held,owner,rfl⟩

/-- What opening an automatic run found and did. -/
theorem ensureImplicitRunTx_ok [CoreFunctions] {workspace principal instanceId id : String} {now : Int} {db after : Db}
    {u : Unit} (opened : ensureImplicitRunTx workspace principal instanceId id now db = .ok (u,after)) :
    ∃ row ∈ db.instances, row.workspaceId = workspace ∧ row.id = instanceId ∧
      (∀ handle ∈ db.cellHandles, handle.workspaceId = workspace → handle.instanceId = instanceId →
        handle.phase = .opened) ∧
      (updateState workspace instanceId db).closing = false ∧
      ∃ ordinal middle count, nextRun workspace row.instanceKey principal db = .ok (ordinal,id) ∧
        insertRun ⟨id,workspace,instanceId,principal,.active,now,none⟩ db = .ok (count,middle) ∧
        after = { middle with
          automaticRuns := middle.automaticRuns.upsert ⟨workspace,row.instanceKey,principal,ordinal,id⟩
            (fun old => { old with ordinal := ordinal, id := id }) (fun _ => rfl) } := by
  simp only [ensureImplicitRunTx,bind_ok,require_ok,ensure_ok,pure_ok,Prod.mk.injEq] at opened
  obtain ⟨row,found,⟨ordinal,expected⟩,next,_,rfl,_,latch,⟨count,middle⟩,inserted,_,rfl⟩ := opened
  obtain ⟨member,keyed⟩ := Table.find_eq_some.mp found
  obtain ⟨shut,closing⟩ := not_or.mp latch
  refine ⟨row,member,congrArg Prod.fst keyed,congrArg Prod.snd keyed,?_,by simpa using closing,ordinal,middle,count,
    next,inserted,rfl⟩
  intro handle held home same
  by_contra other
  exact shut ⟨handle,held,home,same,other⟩

/-- What closing a run found and did. -/
theorem closeExperimentTx_ok {workspace id : String} {now : Int} {db after : Db} {u : Unit}
    (closed : closeExperimentTx workspace id now db = .ok (u,after)) :
    (∀ action ∈ db.actions, action.workspaceId = workspace → action.experimentId = id → action.phase.active = false) ∧
    ∃ run ∈ db.experiments, run.workspaceId = workspace ∧ run.id = id ∧
      ∃ row ∈ db.instances, row.workspaceId = workspace ∧ row.id = run.instanceId ∧
      ∃ revision ∈ db.revisions, revision.digest = row.revisionDigest ∧ revision.workspaceId = workspace ∧
        after = { db with
          runSeals := db.runSeals.insert ⟨workspace,id,⟨(updateState workspace run.instanceId db).generation,
            run.instanceId,workspace,row.revisionDigest,row.lockDigest,row.instanceKey,row.resourceName⟩,
            revision.revision⟩
          experiments := db.experiments.update (fun row => row.workspaceId = workspace ∧ row.id = id)
            (fun row => { row with phase := .closed, closedAtUnix := row.closedAtUnix.or (some now) })
            (fun _ => rfl) } := by
  simp only [closeExperimentTx,bind_ok,require_ok,ensure_ok,pure_ok,Prod.mk.injEq] at closed
  obtain ⟨_,idle,run,foundRun,row,foundRow,revision,foundRevision,_,rfl⟩ := closed
  obtain ⟨present,keyedRun⟩ := Table.find_eq_some.mp foundRun
  obtain ⟨member,keyed⟩ := Table.find_eq_some.mp foundRow
  obtain ⟨published,digest,home⟩ := revisionIn_eq_some.mp foundRevision
  refine ⟨?_,run,present,congrArg Prod.fst keyedRun,congrArg Prod.snd keyedRun,row,member,congrArg Prod.fst keyed,
    congrArg Prod.snd keyed,revision,published,digest,home,rfl⟩
  intro action held there same
  have clear := List.filter_eq_nil_iff.mp idle action held
  simpa [there,same] using clear

theorem searchSession_found [CoreFunctions] {workspace principal experiment requested context : String} {db : Db}
    {session : Session} {fuel : Nat} {id : String} {generation : Nat}
    (ended : searchSession workspace principal experiment requested context db fuel id generation = some (.found session)) :
    session ∈ db.sessions ∧ session.workspaceId = workspace ∧ session.principalId = principal ∧
      session.experimentId = experiment ∧ session.finishedAtUnix = none := by
  induction fuel generalizing id generation with
  | zero => cases ended
  | succ fuel ih =>
    rw [searchSession] at ended
    cases found : db.sessions.find (workspace,id) with
    | none => rw [found] at ended; cases ended
    | some existing =>
      rw [found] at ended
      dsimp only at ended
      split at ended
      · rename_i own
        obtain ⟨member,keyed⟩ := Table.find_eq_some.mp found
        cases ended
        exact ⟨member,congrArg Prod.fst keyed,own⟩
      · exact ih ended

theorem searchSession_free [CoreFunctions] {workspace principal experiment requested context : String} {db : Db}
    {result : String} {fuel : Nat} {id : String} {generation : Nat}
    (ended : searchSession workspace principal experiment requested context db fuel id generation = some (.free result)) :
    db.sessions.find (workspace,result) = none := by
  induction fuel generalizing id generation with
  | zero => cases ended
  | succ fuel ih =>
    rw [searchSession] at ended
    cases found : db.sessions.find (workspace,id) with
    | none => rw [found] at ended; cases ended; exact found
    | some existing =>
      rw [found] at ended
      dsimp only at ended
      split at ended
      · cases ended
      · exact ih ended

/-- What tracking a session found or did: an open session of the caller in the
    run, or a new one. -/
theorem trackSessionTx_ok [CoreFunctions] {workspace principal experiment instanceId requested context id : String}
    {now : Int} {db after : Db} {session : Session}
    (tracked : trackSessionTx workspace principal experiment instanceId requested context id now db = .ok (session,after)) :
    session ∈ after.sessions ∧ session.workspaceId = workspace ∧ session.principalId = principal ∧
      session.experimentId = experiment ∧ session.finishedAtUnix = none ∧
      (after = db ∨ (db.sessions.find (workspace,session.id) = none ∧ session.instanceId = instanceId ∧
        db.experiments.has (workspace,experiment) ∧ db.instances.has (workspace,instanceId) ∧
        db.principals.has principal ∧ after = { db with sessions := db.sessions.insert session })) := by
  simp only [trackSessionTx,bind_ok,require_ok] at tracked
  obtain ⟨search,ended,tracked⟩ := tracked
  cases search with
  | found existing =>
    simp only [pure_ok,Prod.mk.injEq] at tracked
    obtain ⟨rfl,rfl⟩ := tracked
    obtain ⟨member,home,own,run,unfinished⟩ := searchSession_found ended
    exact ⟨member,home,own,run,unfinished,.inl rfl⟩
  | free id =>
    simp only [bind_ok,ensure_ok,pure_ok,Prod.mk.injEq] at tracked
    obtain ⟨_,⟨_,caller,run,held⟩,rfl,rfl⟩ := tracked
    have free := searchSession_free ended
    exact ⟨Table.mem_insert.mpr (.inr ⟨rfl,free⟩),rfl,rfl,rfl,rfl,.inr ⟨free,rfl,run,held,caller,rfl⟩⟩

/-- What recording a capture found or did. -/
theorem recordCaptureTx_ok {workspace principal requestDigest : String} {evidence stored : WorkspaceEvidence}
    {db after : Db} (recorded : recordCaptureTx workspace principal requestDigest evidence db = .ok (stored,after)) :
    after = db ∨ ∃ run ∈ db.experiments, run.workspaceId = workspace ∧ run.id = evidence.content.runId ∧
      run.phase = .active ∧ ∃ row ∈ db.instances, row.workspaceId = workspace ∧ row.id = run.instanceId ∧
      run.instanceId = evidence.content.instanceId ∧ row.instanceKey = evidence.content.instanceKey ∧
      row.revisionDigest = evidence.content.revisionDigest ∧ after = { db with
        workspaceEvidence := db.workspaceEvidence.insert
          ⟨workspace,evidence.content.captureId,evidence.content.runId,principal,requestDigest,evidence⟩ } := by
  simp only [recordCaptureTx] at recorded
  cases previous : db.workspaceEvidence.find (workspace,evidence.content.captureId) with
  | some old =>
    simp only [previous,bind_ok,ensure_ok,pure_ok,Prod.mk.injEq] at recorded
    obtain ⟨_,_,_,rfl⟩ := recorded
    exact .inl rfl
  | none =>
    simp only [previous,bind_ok,ensure_ok,pure_ok,Prod.mk.injEq] at recorded
    obtain ⟨_,state,_,rfl⟩ := recorded
    obtain ⟨run,foundRun,state⟩ := Option.bind_eq_some_iff.mp state
    obtain ⟨row,foundRow,state⟩ := Option.bind_eq_some_iff.mp state
    obtain ⟨present,keyedRun⟩ := Table.find_eq_some.mp foundRun
    obtain ⟨member,keyed⟩ := Table.find_eq_some.mp foundRow
    simp only [pure,Option.some.injEq,Prod.mk.injEq] at state
    obtain ⟨active,same,incarnation,digest⟩ := state
    exact .inr ⟨run,present,congrArg Prod.fst keyedRun,congrArg Prod.snd keyedRun,active,row,member,
      congrArg Prod.fst keyed,congrArg Prod.snd keyed,same,incarnation,digest,rfl⟩
end Proofstorm.Store
