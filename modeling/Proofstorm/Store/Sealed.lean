import Proofstorm.Store.Exclusion

/-!
A closed run is final. Its seal keeps the instance and the revision as they were
at its first closure (`Closes`), its operations have ended, and no later step adds
an operation or a capture to it or changes what it has, the purge of its cell apart
(`Untouched`). The store has no rule of its own for this: admission and captures
ask for an active run, a result or a start for an operation in progress, and the
closure writes the seal only once (`Closed`).
-/
namespace Proofstorm.Store
open Proofstorm.Core
open Proofstorm.Interleaving (Throughout)

/-- What holds of closed runs in every state. -/
structure Closed (db : Db) : Prop where
  stamped : ∀ run ∈ db.experiments, run.phase = .closed → run.closedAtUnix.isSome
  idle : ∀ run ∈ db.experiments, run.phase = .closed → ∀ action ∈ db.actions, action.workspaceId = run.workspaceId →
    action.experimentId = run.id → action.phase.active = false
  owned : ∀ action ∈ db.actions, ∃ run ∈ db.experiments, run.workspaceId = action.workspaceId ∧
    run.id = action.experimentId ∧ run.instanceId = action.instanceId
  marked : ∀ run ∈ db.experiments, run.phase = .closed → db.runSeals.has (run.workspaceId,run.id)
  ended : ∀ row ∈ db.runSeals, ∃ run ∈ db.experiments, run.workspaceId = row.workspaceId ∧ run.id = row.runId ∧
    run.phase = .closed

/-- The row of a run, its seal, its operations and its captures stay as they are. -/
structure Untouched (run : Experiment) (before after : Db) : Prop where
  row : run ∈ after.experiments
  seals : ∀ sealed : RunSealRow, sealed.workspaceId = run.workspaceId → sealed.runId = run.id →
    (sealed ∈ after.runSeals ↔ sealed ∈ before.runSeals)
  actions : ∀ action : ActionRow, action.workspaceId = run.workspaceId → action.experimentId = run.id →
    (action ∈ after.actions ↔ action ∈ before.actions)
  captures : ∀ capture : EvidenceRow, capture.workspaceId = run.workspaceId → capture.runId = run.id →
    (capture ∈ after.workspaceEvidence ↔ capture ∈ before.workspaceEvidence)

theorem Untouched.refl {run : Experiment} {db : Db} (present : run ∈ db.experiments) : Untouched run db db :=
  ⟨present,fun _ _ _ => Iff.rfl,fun _ _ _ => Iff.rfl,fun _ _ _ => Iff.rfl⟩

/-- Two runs of one id are one. -/
theorem run_unique {db : Db} {a b : Experiment} (left : a ∈ db.experiments) (right : b ∈ db.experiments)
    (workspace : a.workspaceId = b.workspaceId) (id : a.id = b.id) : a = b :=
  Table.eq_of_key left right (Prod.ext workspace id)

section
variable {db after : Db}

/-- A statement that keeps runs, seals and operations keeps what is known of closed runs. -/
theorem Closed.congr (closed : Closed db) (experiments : after.experiments = db.experiments)
    (seals : after.runSeals = db.runSeals) (actions : after.actions = db.actions) : Closed after := by
  refine ⟨?_,?_,?_,?_,?_⟩
  · rw [experiments]; exact closed.stamped
  · rw [experiments,actions]; exact closed.idle
  · rw [experiments,actions]; exact closed.owned
  · rw [experiments,seals]; exact closed.marked
  · rw [experiments,seals]; exact closed.ended

/-- Opening a run that is not there. -/
theorem Closed.open_ (closed : Closed db) (run : Experiment) (active : run.phase = .active) :
    Closed { db with experiments := db.experiments.insert run } := by
  refine ⟨fun other member shut => ?_,fun other member shut => ?_,fun action member => ?_,
    fun other member shut => ?_,fun sealed member => ?_⟩
  · rcases Table.mem_insert.mp member with old | ⟨rfl,_⟩
    · exact closed.stamped other old shut
    · rw [active] at shut; cases shut
  · rcases Table.mem_insert.mp member with old | ⟨rfl,_⟩
    · exact closed.idle other old shut
    · rw [active] at shut; cases shut
  · obtain ⟨old,there,facts⟩ := closed.owned action member
    exact ⟨old,Table.mem_insert_of_mem there,facts⟩
  · rcases Table.mem_insert.mp member with old | ⟨rfl,_⟩
    · exact closed.marked other old shut
    · rw [active] at shut; cases shut
  · obtain ⟨old,there,facts⟩ := closed.ended sealed member
    exact ⟨old,Table.mem_insert_of_mem there,facts⟩

/-- Operations that are rewritten in place and do not start again. -/
theorem Closed.rewrite (closed : Closed db) {p : ActionRow → Prop} [DecidablePred p] {f : ActionRow → ActionRow}
    (keeps : ∀ row, key (f row) = key row) (sessions : Table Session)
    (same : ∀ row, (f row).instanceId = row.instanceId ∧ (f row).experimentId = row.experimentId)
    (chosen : ∀ row, p row → row.phase.active = true) :
    Closed { db with sessions := sessions, actions := db.actions.update p f keeps } := by
  refine ⟨closed.stamped,fun run member shut action there home owner => ?_,fun action there => ?_,closed.marked,
    closed.ended⟩
  · rcases (Table.mem_update keeps).mp there with ⟨old,_⟩ | ⟨old,present,picked,rfl⟩
    · exact closed.idle run member shut action old home owner
    · have home_ : old.workspaceId = run.workspaceId := (congrArg Prod.fst (keeps old)).symm.trans home
      have ended := closed.idle run member shut old present home_ ((same old).2.symm.trans owner)
      rw [chosen old picked] at ended
      cases ended
  · rcases (Table.mem_update keeps).mp there with ⟨old,_⟩ | ⟨old,present,_,rfl⟩
    · exact closed.owned action old
    · obtain ⟨run,member,home,owner,cell⟩ := closed.owned old present
      have home_ : old.workspaceId = (f old).workspaceId := (congrArg Prod.fst (keeps old)).symm
      exact ⟨run,member,home.trans home_,owner.trans (same old).2.symm,cell.trans (same old).1.symm⟩

/-- A closure keeps the runs apart from its own, which it closes. -/
theorem Closed.close (closed : Closed db) {workspace id : String} {now : Int} {run : Experiment} {stored : RunSealRow}
    (idle : ∀ action ∈ db.actions, action.workspaceId = workspace → action.experimentId = id → action.phase.active = false)
    (present : run ∈ db.experiments) (there : run.workspaceId = workspace) (same : run.id = id)
    (home : stored.workspaceId = workspace) (named : stored.runId = id) :
    Closed { db with
      runSeals := db.runSeals.insert stored
      experiments := db.experiments.update (fun row => row.workspaceId = workspace ∧ row.id = id)
        (fun row => { row with phase := .closed, closedAtUnix := row.closedAtUnix.or (some now) }) (fun _ => rfl) } := by
  have keeps : ∀ row : Experiment, key { row with phase := .closed, closedAtUnix := row.closedAtUnix.or (some now) } =
      key row := fun _ => rfl
  -- Every run is still there, closed if it is the one.
  have kept : ∀ old ∈ db.experiments, ∃ next ∈ db.experiments.update (fun row => row.workspaceId = workspace ∧ row.id = id)
      (fun row => { row with phase := .closed, closedAtUnix := row.closedAtUnix.or (some now) }) keeps,
      next.workspaceId = old.workspaceId ∧ next.id = old.id ∧ next.instanceId = old.instanceId ∧
        (old.phase = .closed ∨ old.workspaceId = workspace ∧ old.id = id → next.phase = .closed) := by
    intro old member
    by_cases chosen : old.workspaceId = workspace ∧ old.id = id
    · exact ⟨_,(Table.mem_update keeps).mpr (.inr ⟨old,member,chosen,rfl⟩),rfl,rfl,rfl,fun _ => rfl⟩
    · exact ⟨old,(Table.mem_update keeps).mpr (.inl ⟨member,chosen⟩),rfl,rfl,rfl,fun either => either.resolve_right chosen⟩
  refine ⟨fun other member shut => ?_,fun other member shut action held home_ owner => ?_,fun action member => ?_,
    fun other member shut => ?_,fun sealed member => ?_⟩
  · rcases (Table.mem_update keeps).mp member with ⟨old,_⟩ | ⟨old,_,_,rfl⟩
    · exact closed.stamped other old shut
    · cases at_ : old.closedAtUnix <;> simp
  · rcases (Table.mem_update keeps).mp member with ⟨old,_⟩ | ⟨old,_,⟨mine,named_⟩,rfl⟩
    · exact closed.idle other old shut action held home_ owner
    · exact idle action held (home_.trans mine) (owner.trans named_)
  · obtain ⟨old,before,home_,owner,cell⟩ := closed.owned action member
    obtain ⟨next,here,a,b,c,_⟩ := kept old before
    exact ⟨next,here,a.trans home_,b.trans owner,c.trans cell⟩
  · rcases (Table.mem_update keeps).mp member with ⟨old,_⟩ | ⟨old,_,⟨mine,named_⟩,rfl⟩
    · obtain ⟨sealed,held,same_⟩ := closed.marked other old shut
      exact ⟨sealed,Table.mem_insert_of_mem held,same_⟩
    · have here : key stored = (old.workspaceId,old.id) := Prod.ext (home.trans mine.symm) (named.trans named_.symm)
      exact here ▸ Table.has_insert db.runSeals stored
  · rcases Table.mem_insert.mp member with old | ⟨rfl,_⟩
    · obtain ⟨ended,before,home_,owner,shut⟩ := closed.ended sealed old
      obtain ⟨next,here,a,b,_,c⟩ := kept ended before
      exact ⟨next,here,a.trans home_,b.trans owner,c (.inl shut)⟩
    · obtain ⟨next,here,a,b,_,c⟩ := kept run present
      exact ⟨next,here,a.trans (there.trans home.symm),b.trans (same.trans named.symm),c (.inr ⟨there,same⟩)⟩

end

section
variable [CoreFunctions] {known : PublishedRevision → Prop} {statement : Statement} {db after : Db}

theorem Closed.admit (closed : Closed db) {a : Admission} {operation : CellOperation} {cell : InstanceRow}
    (admitted : Admitted a operation cell db after) : Closed after := by
  obtain ⟨run,present,home,named,there,active⟩ := admitted.run
  rw [admitted.result]
  refine ⟨closed.stamped,fun other member shut action held home_ owner => ?_,fun action held => ?_,closed.marked,
    closed.ended⟩
  · rcases Table.mem_insert.mp held with old | ⟨rfl,_⟩
    · exact closed.idle other member shut action old home_ owner
    · -- The run of the admission is active.
      have same := run_unique member present (home_.symm.trans home.symm) (owner.symm.trans named.symm)
      rw [same,active] at shut
      cases shut
  · rcases Table.mem_insert.mp held with old | ⟨rfl,_⟩
    · exact closed.owned action old
    · exact ⟨run,present,home,named,there⟩

variable {run : Experiment}

omit [CoreFunctions] in
/-- A purge deletes by their ids the seals and captures of the runs of the cell only. -/
theorem run_purged {cell : CellInstance} {workspace id : String} (present : run ∈ db.experiments)
    (same : (workspace,id) = (run.workspaceId,run.id))
    (gone : workspace = cell.workspaceId ∧ id ∈ (runsOf cell db).map Experiment.id) :
    run.workspaceId = cell.workspaceId ∧ run.instanceId = cell.id := by
  obtain ⟨rfl,rfl⟩ := Prod.mk.inj same
  obtain ⟨other,listed,id⟩ := List.mem_map.mp gone.2
  obtain ⟨held,mine⟩ := List.mem_filter.mp listed
  obtain ⟨home,there⟩ := of_decide_eq_true mine
  have one := run_unique held present (home.trans gone.1.symm) id
  exact one ▸ ⟨home,there⟩

theorem Closed.purge (closed : Closed db) (cell : CellInstance) : Closed (purged cell db) := by
  refine ⟨fun run member => closed.stamped run (Table.mem_delete.mp member).1,
    fun run member shut action held => closed.idle run (Table.mem_delete.mp member).1 shut action (Table.mem_delete.mp held).1,
    fun action member => ?_,fun run member shut => ?_,fun sealed member => ?_⟩
  · obtain ⟨held,other⟩ := Table.mem_delete.mp member
    obtain ⟨run,present,home,owner,there⟩ := closed.owned action held
    exact ⟨run,Table.mem_delete.mpr ⟨present,fun gone => other ⟨home.symm.trans gone.1,there.symm.trans gone.2⟩⟩,home,owner,
      there⟩
  · obtain ⟨held,other⟩ := Table.mem_delete.mp member
    obtain ⟨sealed,stored,same⟩ := closed.marked run held shut
    exact ⟨sealed,Table.mem_delete.mpr ⟨stored,fun gone => other (run_purged held same gone)⟩,same⟩
  · obtain ⟨held,other⟩ := Table.mem_delete.mp member
    obtain ⟨run,present,home,owner,shut⟩ := closed.ended sealed held
    refine ⟨run,Table.mem_delete.mpr ⟨present,fun gone => other ⟨home.symm.trans gone.1,?_⟩⟩,home,owner,shut⟩
    rw [← owner]
    exact List.mem_map_of_mem (List.mem_filter.mpr ⟨present,by simpa using gone⟩)

theorem Closed.write (closed : Closed db) (warranted : Warranted known statement) (write : Write statement db after) :
    Closed after := by
  cases write with
  | openRun run db free held => exact closed.open_ run warranted.1
  | automaticRun workspace principal instanceId id now db cell ordinal member home named open_ opened next =>
    exact (closed.open_ ⟨id,workspace,instanceId,principal,.active,now,none⟩ rfl).congr rfl rfl rfl
  | closeRun workspace id now db run cell revision idle present there same =>
    exact closed.close idle present there same rfl rfl
  | newAction a operation cell db after admitted => exact closed.admit admitted
  | result workspace operationId session phase artifact completedAt db =>
    exact closed.rewrite _ _ (fun _ => ⟨rfl,rfl⟩) fun _ chosen => chosen.2.2
  | start workspace operationId phase now db =>
    exact closed.rewrite _ _ (fun _ => ⟨rfl,rfl⟩) fun _ chosen => by rw [chosen.2.2]; rfl
  | acknowledge _ _ _ _ _ _ _ db after acknowledged =>
    rw [(recordUpdateReceipt_ok.mp acknowledged.result).2]
    exact closed.congr rfl rfl rfl
  | accept workspace principal k plan revision now cell db after accepted =>
    rw [accepted.after_eq]
    exact closed.congr rfl rfl rfl
  | purge cell db => exact closed.purge cell
  | _ => exact closed.congr rfl rfl rfl

/-! ### What a step leaves of a closed run -/

omit [CoreFunctions] in
theorem Untouched.congr (present : run ∈ db.experiments) (experiments : after.experiments = db.experiments)
    (seals : after.runSeals = db.runSeals) (actions : after.actions = db.actions)
    (captures : after.workspaceEvidence = db.workspaceEvidence) : Untouched run db after := by
  refine ⟨?_,?_,?_,?_⟩
  · rw [experiments]; exact present
  · rw [seals]; exact fun _ _ _ => Iff.rfl
  · rw [actions]; exact fun _ _ _ => Iff.rfl
  · rw [captures]; exact fun _ _ _ => Iff.rfl

omit [CoreFunctions] in
/-- Operations that have ended are not rewritten. -/
theorem Closed.untouched_rewrite (closed : Closed db) (present : run ∈ db.experiments)
    (shut : run.phase = .closed) {p : ActionRow → Prop} [DecidablePred p] {f : ActionRow → ActionRow}
    (keeps : ∀ row, key (f row) = key row) (sessions : Table Session) (same : ∀ row, (f row).experimentId = row.experimentId)
    (chosen : ∀ row, p row → row.phase.active = true) :
    Untouched run db { db with sessions := sessions, actions := db.actions.update p f keeps } := by
  have ended : ∀ row ∈ db.actions, row.workspaceId = run.workspaceId → row.experimentId = run.id → ¬ p row := by
    intro row member home owner picked
    have finished := closed.idle run present shut row member home owner
    rw [chosen row picked] at finished
    cases finished
  refine ⟨present,fun _ _ _ => Iff.rfl,fun action home owner => ?_,fun _ _ _ => Iff.rfl⟩
  rw [Table.mem_update]
  constructor
  · rintro (⟨member,_⟩ | ⟨old,member,picked,rfl⟩)
    · exact member
    · have home_ : old.workspaceId = run.workspaceId := (congrArg Prod.fst (keeps old)).symm.trans home
      exact absurd picked (ended old member home_ ((same old).symm.trans owner))
  · intro member
    exact .inl ⟨member,ended action member home owner⟩

/-- The purge of another cell leaves a run alone. -/
theorem Closed.untouched_purge (closed : Closed db) (present : run ∈ db.experiments) {cell : CellInstance}
    (other : ¬ (run.workspaceId = cell.workspaceId ∧ run.instanceId = cell.id)) : Untouched run db (purged cell db) := by
  refine ⟨Table.mem_delete.mpr ⟨present,other⟩,fun sealed home named => ?_,fun action home owner => ?_,
    fun capture home named => ?_⟩
  · refine ⟨fun kept => (Table.mem_delete.mp kept).1,fun held => Table.mem_delete.mpr ⟨held,fun gone => other ?_⟩⟩
    exact run_purged present (Prod.ext home named) gone
  · refine ⟨fun kept => (Table.mem_delete.mp kept).1,fun held => Table.mem_delete.mpr ⟨held,fun gone => other ?_⟩⟩
    obtain ⟨mine,there,home_,owner_,cell_⟩ := closed.owned action held
    have one := run_unique there present (home_.trans home) (owner_.trans owner)
    exact one ▸ ⟨home_.trans gone.1,cell_.trans gone.2⟩
  · refine ⟨fun kept => (Table.mem_delete.mp kept).1,fun held => Table.mem_delete.mpr ⟨held,fun gone => other ?_⟩⟩
    exact run_purged present (Prod.ext home named) gone

theorem Closed.untouched (closed : Closed db) (write : Write statement db after)
    (present : run ∈ db.experiments) (shut : run.phase = .closed) :
    (∃ cell, statement = .purgeCell cell ∧ run.workspaceId = cell.workspaceId ∧ run.instanceId = cell.id) ∨
      Untouched run db after := by
  -- What a step asks to be active is another run.
  have apart : ∀ {active : Experiment}, active ∈ db.experiments → active.phase = .active →
      ¬ (run.workspaceId = active.workspaceId ∧ run.id = active.id) := by
    intro active member going same
    rw [run_unique present member same.1 same.2,going] at shut
    cases shut
  cases write with
  | openRun =>
    exact .inr ⟨Table.mem_insert_of_mem present,fun _ _ _ => Iff.rfl,fun _ _ _ => Iff.rfl,fun _ _ _ => Iff.rfl⟩
  | automaticRun =>
    exact .inr ⟨Table.mem_insert_of_mem present,fun _ _ _ => Iff.rfl,fun _ _ _ => Iff.rfl,fun _ _ _ => Iff.rfl⟩
  | closeRun workspace id now db other cell revision =>
    refine .inr ⟨(Table.mem_update (by exact fun _ => rfl)).mpr ?_,fun sealed home named => ?_,fun _ _ _ => Iff.rfl,
      fun _ _ _ => Iff.rfl⟩
    · by_cases chosen : run.workspaceId = workspace ∧ run.id = id
      · refine .inr ⟨run,present,chosen,?_⟩
        obtain ⟨at_,stamped⟩ := Option.isSome_iff_exists.mp (closed.stamped run present shut)
        obtain ⟨_,_,_,_,phase,_,closedAt⟩ := run
        simp only at shut stamped
        subst shut stamped
        rfl
      · exact .inl ⟨present,chosen⟩
    · refine ⟨fun member => ?_,Table.mem_insert_of_mem⟩
      rcases Table.mem_insert.mp member with old | ⟨rfl,free⟩
      · exact old
      · have marked := closed.marked run present shut
        rw [← home,← named] at marked
        exact absurd marked (Table.not_has.mpr free)
  | capture workspace principal requestDigest evidence db active cell member there same going =>
    refine .inr ⟨present,fun _ _ _ => Iff.rfl,fun _ _ _ => Iff.rfl,fun capture home named => ?_⟩
    refine ⟨fun held => ?_,Table.mem_insert_of_mem⟩
    rcases Table.mem_insert.mp held with old | ⟨rfl,_⟩
    · exact old
    · exact absurd ⟨home.symm.trans there.symm,named.symm.trans same.symm⟩ (apart member going)
  | newAction a operation cell db after admitted =>
    obtain ⟨active,member,there,same,_,going⟩ := admitted.run
    rw [admitted.result]
    refine .inr ⟨present,fun _ _ _ => Iff.rfl,fun action home owner => ?_,fun _ _ _ => Iff.rfl⟩
    refine ⟨fun held => ?_,Table.mem_insert_of_mem⟩
    rcases Table.mem_insert.mp held with old | ⟨rfl,_⟩
    · exact old
    · exact absurd ⟨home.symm.trans there.symm,owner.symm.trans same.symm⟩ (apart member going)
  | result workspace operationId session phase artifact completedAt db =>
    exact .inr (closed.untouched_rewrite present shut _ _ (fun _ => rfl) fun _ chosen => chosen.2.2)
  | start workspace operationId phase now db =>
    exact .inr (closed.untouched_rewrite present shut _ _ (fun _ => rfl) fun _ chosen => by rw [chosen.2.2]; rfl)
  | acknowledge _ _ _ _ _ _ _ db after acknowledged =>
    rw [(recordUpdateReceipt_ok.mp acknowledged.result).2]
    exact .inr (.congr present rfl rfl rfl rfl)
  | accept workspace principal k plan revision now cell db after accepted =>
    rw [accepted.after_eq]
    exact .inr (.congr present rfl rfl rfl rfl)
  | purge cell db =>
    by_cases mine : run.workspaceId = cell.workspaceId ∧ run.instanceId = cell.id
    · exact .inl ⟨cell,rfl,mine⟩
    · exact .inr (closed.untouched_purge present mine)
  | _ => exact .inr (.congr present rfl rfl rfl rfl)

/-! ### Runs of the store -/

/-- The event closes the run, which was open until then, and writes the seal from
    the instance and its revision as the reads of the store have them there. -/
structure Closes (event : Event) (run : Experiment) (sealed : RunSealRow) : Prop where
  did : ∃ now, event.did = some (.closeExperiment run.workspaceId run.id now)
  opened : ∃ before ∈ event.before.experiments, before.workspaceId = run.workspaceId ∧ before.id = run.id ∧
    before.instanceId = run.instanceId ∧ before.phase = .active
  cell : instanceUnchecked run.workspaceId run.instanceId event.before = .ok sealed.cell
  revision : revisionUnchecked run.workspaceId sealed.cell.revisionDigest event.before = .ok sealed.revision
  kept : run ∈ event.after.experiments

/-- A closed run has the seal of its first closure in the log, and has been there as it is since. -/
def Sealed (log : List Event) (db : Db) (run : Experiment) : Prop :=
  ∃ sealed ∈ db.runSeals, sealed.workspaceId = run.workspaceId ∧ sealed.runId = run.id ∧
    ∃ newer event older, log = newer ++ event :: older ∧ Closes event run sealed ∧
      ∀ seen ∈ newer, run ∈ seen.before.experiments ∧ run ∈ seen.after.experiments

omit [CoreFunctions] in
theorem Sealed.cons {log : List Event} {event : Event} (was : Sealed log event.before run)
    (present : run ∈ event.before.experiments) (untouched : Untouched run event.before event.after) :
    Sealed (event :: log) event.after run := by
  obtain ⟨sealed,member,home,named,newer,first,older,rfl,closes,since⟩ := was
  refine ⟨sealed,(untouched.seals sealed home named).mpr member,home,named,event :: newer,first,older,rfl,closes,?_⟩
  intro seen listed
  rcases List.mem_cons.mp listed with rfl | listed
  · exact ⟨present,untouched.row⟩
  · exact since seen listed

/-- A run that a step leaves closed was closed before it, or the step is its first closure. -/
theorem Closed.first (closed : Closed db) (warranted : Warranted known statement) (write : Write statement db after)
    (present : run ∈ after.experiments) (shut : run.phase = .closed)
    (fresh : ∀ old ∈ db.experiments, old.phase = .closed → ¬ (old.workspaceId = run.workspaceId ∧ old.id = run.id)) :
    (∃ now, statement = .closeExperiment run.workspaceId run.id now) ∧
      (∃ before ∈ db.experiments, before.workspaceId = run.workspaceId ∧ before.id = run.id ∧
        before.instanceId = run.instanceId ∧ before.phase = .active) ∧
      ∃ sealed ∈ after.runSeals, sealed.workspaceId = run.workspaceId ∧ sealed.runId = run.id ∧
        instanceUnchecked run.workspaceId run.instanceId db = .ok sealed.cell ∧
        revisionUnchecked run.workspaceId sealed.cell.revisionDigest db = .ok sealed.revision := by
  have absent : run ∉ db.experiments := fun member => fresh run member shut ⟨rfl,rfl⟩
  cases write with
  | closeRun workspace id now db other cell revision _ there home named member cell_home cell_named published digest publisher =>
    rcases (Table.mem_update (by exact fun _ => rfl)).mp present with ⟨old,_⟩ | ⟨old,held,⟨rfl,rfl⟩,rfl⟩
    · exact absurd old absent
    · have one := run_unique there held home named
      subst one
      have going : other.phase = .active := by
        cases phase : other.phase with
        | active => rfl
        | closed => exact absurd ⟨rfl,rfl⟩ (fresh other held phase)
      refine ⟨⟨now,rfl⟩,⟨other,held,rfl,rfl,rfl,going⟩,_,Table.mem_insert.mpr (.inr ⟨rfl,?_⟩),rfl,rfl,?_,?_⟩
      · -- A seal that was there would be of a closed run.
        refine Table.not_has.mp fun ⟨sealed,stored,same⟩ => ?_
        obtain ⟨ended,before,home_,named_,finished⟩ := closed.ended sealed stored
        obtain ⟨ws,id⟩ := Prod.mk.inj same
        exact fresh ended before finished ⟨home_.trans ws,named_.trans id⟩
      · exact instanceUnchecked_ok.mpr ⟨cell,member,cell_home,cell_named,rfl⟩
      · exact revisionUnchecked_ok.mpr ⟨revision,published,digest,publisher,rfl⟩
  | openRun run db free held =>
    rcases Table.mem_insert.mp present with old | ⟨rfl,_⟩
    · exact absurd old absent
    · rw [warranted.1] at shut
      cases shut
  | automaticRun =>
    rcases Table.mem_insert.mp present with old | ⟨rfl,_⟩
    · exact absurd old absent
    · cases shut
  | newAction a operation cell db after admitted =>
    rw [admitted.result] at present
    exact absurd present absent
  | acknowledge _ _ _ _ _ _ _ db after acknowledged =>
    rw [(recordUpdateReceipt_ok.mp acknowledged.result).2] at present
    exact absurd present absent
  | accept workspace principal k plan revision now cell db after accepted =>
    rw [accepted.after_eq] at present
    exact absurd present absent
  | purge => exact absurd (Table.mem_delete.mp present).1 absent
  | _ => exact absurd present absent

/-- After the purge of its cell a run is gone. -/
theorem Closed.gone (closed : Closed db) {cell : CellInstance} (write : Write (.purgeCell cell) db after) {run old : Experiment}
    (held : old ∈ db.experiments) (shut : old.phase = .closed) (mine : old.workspaceId = cell.workspaceId ∧ old.instanceId = cell.id)
    (present : run ∈ after.experiments) (home : old.workspaceId = run.workspaceId) (named : old.id = run.id) :
    Untouched old db after := by
  rcases closed.untouched write held shut with _ | untouched
  · cases write with
    | purge =>
      obtain ⟨kept,other⟩ := Table.mem_delete.mp present
      exact absurd mine (run_unique held kept home named ▸ other)
    | _ => exact .congr held rfl rfl rfl rfl
  · exact untouched

theorem Sealed.step {log : List Event} {event : Event} (did : event.did = some statement)
    (warranted : Warranted known statement) (write : Write statement event.before event.after) (closed : Closed event.before)
    (were : ∀ old ∈ event.before.experiments, old.phase = .closed → Sealed log event.before old)
    (present : run ∈ event.after.experiments) (shut : run.phase = .closed) : Sealed (event :: log) event.after run := by
  by_cases fresh : ∀ old ∈ event.before.experiments, old.phase = .closed →
      ¬ (old.workspaceId = run.workspaceId ∧ old.id = run.id)
  · obtain ⟨⟨now,rfl⟩,opened,sealed,stored,home,named,cell,revision⟩ := closed.first warranted write present shut fresh
    exact ⟨sealed,stored,home,named,[],event,log,rfl,⟨⟨now,did⟩,opened,cell,revision,present⟩,
      fun _ listed => absurd listed List.not_mem_nil⟩
  · simp only [not_forall,not_not] at fresh
    obtain ⟨old,held,finished,home,named⟩ := fresh
    have untouched : Untouched old event.before event.after := by
      rcases closed.untouched write held finished with ⟨cell,rfl,mine⟩ | untouched
      · exact closed.gone write held finished mine present home named
      · exact untouched
    have one := run_unique untouched.row present home named
    exact one ▸ (were old held finished).cons held untouched

omit [CoreFunctions] in
theorem Closed.empty : Closed Db.empty := by
  refine ⟨?_,?_,?_,?_,?_⟩
  · exact fun run member => absurd member (Table.not_mem_empty run)
  · exact fun run member => absurd member (Table.not_mem_empty run)
  · exact fun action member => absurd member (Table.not_mem_empty action)
  · exact fun run member => absurd member (Table.not_mem_empty run)
  · exact fun sealed member => absurd member (Table.not_mem_empty sealed)

theorem Reached.closed {config : Config} (reached : Reached config) :
    Closed config.state ∧ Throughout (fun _ event => Closed event.before ∧ Closed event.after) config.log :=
  reached.always Closed Closed.empty fun _ _ _ warranted _ write closed => closed.write warranted write

theorem Reached.sealed {config : Config} (reached : Reached config) :
    ∀ run ∈ config.state.experiments, run.phase = .closed → Sealed config.log config.state run := by
  have given : Throughout (fun _ event => Closed event.before) config.log :=
    reached.closed.2.mono fun _ _ both => both.1
  refine (reached.induction_of _ given
    (fun log db => ∀ run ∈ db.experiments, run.phase = .closed → Sealed log db run) ?_ ?_ ?_).1
  · exact fun run member => absurd member (Table.not_mem_empty run)
  · intro older event _ same before run member shut
    rw [same] at member
    refine (before run member shut).cons member ?_
    rw [same]
    exact .refl member
  · intro older event statement closed did warranted _ write before run member shut
    exact Sealed.step did warranted write closed before member shut

/-- A sealed run is final. A closed run has the seal of its first closure and no
    operation in progress, and no later step adds an operation or a capture to it
    or changes one it has, its seal or its row, the purge of its cell apart. -/
theorem sealed_run_final {config : Config} (reached : Reached config) :
    (∀ run ∈ config.state.experiments, run.phase = .closed →
      Sealed config.log config.state run ∧
        ∀ action ∈ config.state.actions, action.workspaceId = run.workspaceId → action.experimentId = run.id →
          action.phase.active = false) ∧
      Throughout (fun _ event => ∀ run ∈ event.before.experiments, run.phase = .closed →
        (∃ cell, event.did = some (.purgeCell cell) ∧ run.workspaceId = cell.workspaceId ∧ run.instanceId = cell.id) ∨
          Untouched run event.before event.after) config.log := by
  obtain ⟨closed,throughout⟩ := reached.closed
  refine ⟨fun run member shut => ⟨reached.sealed run member shut,closed.idle run member shut⟩,?_⟩
  obtain ⟨_,warranted⟩ := reached.warranted _ reached.vetted
  refine ((throughout.and warranted).and reached.committed).mono ?_
  rintro _ event ⟨⟨⟨before,_⟩,_,writes⟩,committed⟩ run member shut
  cases did : event.did with
  | none =>
    rw [Interleaving.Committed,did] at committed
    rw [committed]
    exact .inr (.refl member)
  | some statement =>
    obtain ⟨_,_,write⟩ := writes statement did
    rcases before.untouched write member shut with ⟨cell,rfl,mine⟩ | untouched
    · exact .inl ⟨cell,rfl,mine⟩
    · exact .inr untouched
end

section
attribute [local instance] CoreFunctions.sample

/-- A run is closed twice after its operation has ended; a second result and a
    second operation come too late. -/
def closedTwice : Config :=
  ran (inTurn (prepared [("one",["alice","bob"])] ++
    [sampleInstance "cell-1" "n" "k1" ["alice","bob"],.createExperiment "w" "p" "run-1" "cell-1" "k2" 0,
      sampleOperation "p" "start-alice" "k3" "alice",.recordOperationResult "w" "start-alice" .succeeded .null 1,
      .closeExperiment "w" "p" "run-1" "k4" 2,.recordOperationResult "w" "start-alice" .failed .null 3,
      sampleOperation "p" "start-bob" "k5" "bob",.closeExperiment "w" "q" "run-1" "k6" 4]))

set_option maxRecDepth 100000 in
theorem sealed_run_final_closedTwice :
    (∃ run ∈ closedTwice.state.experiments.rows, run.closedAtUnix = some 2 ∧ run.phase = .closed ∧
      Sealed closedTwice.log closedTwice.state run) ∧
    closedTwice.state.actions.rows.map (fun action => (action.id,action.phase)) =
      [("start-alice",OperationPhase.succeeded)] := by
  have seen : (∃ run ∈ closedTwice.state.experiments.rows, run.closedAtUnix = some 2 ∧ run.phase = .closed) ∧
    closedTwice.state.actions.rows.map (fun action => (action.id,action.phase)) =
      [("start-alice",OperationPhase.succeeded)] := by decide +kernel
  obtain ⟨⟨run,member,stamped,shut⟩,actions⟩ := seen
  have reached : Reached closedTwice := ran_reached _
  exact ⟨⟨run,member,stamped,shut,((sealed_run_final reached).1 run member shut).1⟩,actions⟩
end

end Proofstorm.Store
