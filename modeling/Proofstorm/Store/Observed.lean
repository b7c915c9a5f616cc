import Mathlib.Data.Int.ConditionallyCompleteOrder
import Mathlib.Order.ConditionallyCompleteLattice.Basic
import Proofstorm.Measured
import Proofstorm.Store.History

/-!
The digests by which an observer tells whether the activity, or the sessions, of
a cell have changed. Both digest a few numbers in the place of a table. They tell
enough because every statement that writes a row makes it heavier in an order in
which the numbers weigh the table: an action goes from pending to running to one
of the final phases, a session is finished once, and its last activity only goes
forward. The two results are `activity_unchanged` and `sessions_unchanged`.
-/
namespace Proofstorm.Store
open Proofstorm.Core
open Proofstorm.Interleaving (query Throughout stateAfter)
open Proofstorm.Interleaving.Call (Alone alone_bind alone_query)

/-! ### The digests -/

/-- The actions of an instance. -/
def activity (workspace instanceId : String) (db : Db) : List ActionRow :=
  db.actions.rows.filter fun row => row.workspaceId = workspace ∧ row.instanceId = instanceId

/-- The sessions of an instance. -/
def sessionsIn (workspace instanceId : String) (db : Db) : List Session :=
  db.sessions.rows.filter fun row => row.workspaceId = workspace ∧ row.instanceId = instanceId

/-- `COUNT(CASE WHEN phase_json=… THEN 1 END)`. -/
def inPhase (phase : OperationPhase) (rows : List ActionRow) : Nat := rows.countP fun row => row.phase = phase

/-- The columns of `activity_observation_digest`. -/
def activityCounts (workspace instanceId : String) (db : Db) : List Int :=
  let rows := activity workspace instanceId db
  [rows.length,lastSequence workspace instanceId db,inPhase .pending rows,inPhase .running rows,
    inPhase .succeeded rows,inPhase .failed rows,inPhase .cancelled rows]

/-- The columns of `session_observation_digest`. The engine numbers the rows by `rowid`. -/
def sessionCounts (rowid : Session → Int) (workspace instanceId : String) (db : Db) : List Int :=
  let rows := sessionsIn workspace instanceId db
  [rows.length,(rows.map rowid).foldl max 0,(rows.map Session.lastActivityAtUnix).sum,
    rows.countP (fun row => row.finishedAtUnix.isSome),(rows.filterMap Session.finishedAtUnix).sum]

section
variable [CoreFunctions]

def activityObservationDigest (workspace principal instanceId : String) : Program String := do
  query (authorize workspace principal .cellStatus)
  query (authorize workspace principal .experimentRead)
  query (authorize workspace principal .artifactRead)
  let identity ← query (instanceUnchecked workspace instanceId)
  query fun db => .ok (digestJson (.observation workspace instanceId identity.instanceKey
    (activityCounts workspace instanceId db)))

def sessionObservationDigest (rowid : Session → Int) (workspace principal instanceId : String) : Program String := do
  query (authorize workspace principal .experimentRead)
  let identity ← query (instanceUnchecked workspace instanceId)
  query fun db => .ok (digestJson (.observation workspace instanceId identity.instanceKey
    (sessionCounts rowid workspace instanceId db)))
end

/-! ### Weights -/

def ActionRow.weight (row : ActionRow) : Nat :=
  match row.phase with
  | .pending => 1
  | .running => 2
  | _ => 3

/-- Finishing counts more than any time of the last activity. -/
def Session.weight (row : Session) : ℕ ×ₗ ℕ ×ₗ ℤ :=
  toLex (1,toLex (if row.finishedAtUnix.isSome then 1 else 0,row.lastActivityAtUnix))

theorem ActionRow.weight_pos (row : ActionRow) : 0 < row.weight := by
  rw [ActionRow.weight]
  split <;> decide

theorem Session.weight_pos (row : Session) : 0 < Session.weight row :=
  Prod.Lex.toLex_lt_toLex.mpr (.inl Nat.zero_lt_one)

/-- The numbers of rows in the phases weigh the rows. -/
theorem total_activity (rows : List ActionRow) : total ActionRow.weight rows = inPhase .pending rows +
    2 * inPhase .running rows + 3 * (inPhase .succeeded rows + inPhase .failed rows + inPhase .cancelled rows) := by
  induction rows with
  | nil => rfl
  | cons row rest ih =>
    rw [total_cons,ih]
    simp only [inPhase,List.countP_cons]
    cases phase : row.phase <;> simp [ActionRow.weight,phase] <;> omega

/-- So do the number of sessions, of finished ones, and the sum of their last activities. -/
theorem total_sessions (rows : List Session) : total Session.weight rows =
    toLex (rows.length,toLex (rows.countP (fun row => row.finishedAtUnix.isSome),
      (rows.map Session.lastActivityAtUnix).sum)) := by
  induction rows with
  | nil => rfl
  | cons row rest ih =>
    rw [total_cons,ih]
    simp only [List.length_cons,List.countP_cons,List.map_cons,List.sum_cons,Session.weight,← toLex_add,Prod.mk_add_mk]
    rw [Nat.add_comm 1,Nat.add_comm (if row.finishedAtUnix.isSome = true then 1 else 0)]

/-! ### Statements -/

/-- A session that has a time of its end is finished. -/
def Settled (db : Db) : Prop := ∀ row ∈ db.sessions, row.finishedAtUnix.isSome = true → row.phase = .finished

/-- The statement does not purge the instance. -/
def Spares (workspace instanceId : String) : Statement → Prop
  | .purgeCell cell => ¬ (cell.workspaceId = workspace ∧ cell.id = instanceId)
  | _ => True

instance (workspace instanceId : String) (statement : Statement) : Decidable (Spares workspace instanceId statement) := by
  cases statement <;> simp only [Spares] <;> infer_instance

section
variable [CoreFunctions] {statement : Statement} {db after : Db} {known : PublishedRevision → Prop}
  {workspace instanceId : String}

/-- The actions of an instance that is not purged are added, started and ended. -/
theorem Write.activity_advances (write : Write statement db after) (warranted : Warranted known statement)
    (spared : Spares workspace instanceId statement) :
    Advances (total ActionRow.weight) (activity workspace instanceId db) (activity workspace instanceId after) := by
  cases write with
  | newAction a operation cell db after admitted =>
    rw [admitted.result]
    exact db.actions.advances_insert (ActionRow.weight_pos _)
  | result home id session phase artifact completedAt db =>
    refine Table.advances_update (by exact fun _ => rfl) (fun _ => Iff.rfl) fun row _ chosen => .inr ?_
    have ended : phase.active = false := warranted
    have going := chosen.2.2
    cases before : row.phase <;> rw [before] at going <;> cases phase <;> simp_all [ActionRow.weight,OperationPhase.active]
  | start home id phase now db =>
    refine Table.advances_update (by exact fun _ => rfl) (fun _ => Iff.rfl) fun row _ chosen => .inr ?_
    have started : phase = .running := warranted
    simp [ActionRow.weight,chosen.2.2,started]
  | acknowledge _ _ _ _ _ _ _ _ _ acknowledged =>
    rw [(recordUpdateReceipt_ok.mp acknowledged.result).2]
    exact .refl _ _
  | accept _ _ _ _ _ _ _ _ _ accepted =>
    rw [accepted.after_eq]
    exact .refl _ _
  | purge cell db =>
    have same : activity workspace instanceId (purged cell db) = activity workspace instanceId db :=
      db.actions.filter_delete _ fun row gone here =>
        spared ⟨gone.1.symm.trans here.1,gone.2.symm.trans here.2⟩
    rw [same]
    exact .refl _ _
  | _ => exact .refl _ _

omit [CoreFunctions] in
/-- An update of a session puts its last activity forward. -/
private theorem touch_advances (home id : String) (now : Int) (db : Db) : Advances (total Session.weight)
    (sessionsIn workspace instanceId db) (sessionsIn workspace instanceId (touchSession home id now db)) := by
  refine Table.advances_update (by exact fun _ => rfl) (fun _ => Iff.rfl) fun row _ _ => ?_
  rcases le_total now row.lastActivityAtUnix with before | later
  · exact .inl (by rw [max_eq_left before])
  · rcases later.eq_or_lt with same | later
    · exact .inl (by rw [← same,max_self])
    · refine .inr (Prod.Lex.toLex_lt_toLex.mpr (.inr ⟨rfl,Prod.Lex.toLex_lt_toLex.mpr (.inr ⟨rfl,?_⟩)⟩))
      exact later.trans_le (le_max_right _ _)

/-- The sessions of an instance that is not purged are opened, touched and
    finished, and no finished session is changed by being finished again. -/
theorem Write.sessions_advance (write : Write statement db after) (settled : Settled db)
    (spared : Spares workspace instanceId statement) :
    Advances (total Session.weight) (sessionsIn workspace instanceId db) (sessionsIn workspace instanceId after) := by
  cases write with
  | openSession => exact db.sessions.advances_insert (Session.weight_pos _)
  | finishSessions statement chosen now db =>
    refine Table.advances_update (by exact fun _ => rfl) (fun _ => Iff.rfl) fun row member _ => ?_
    cases finished : row.finishedAtUnix with
    | none =>
      refine .inr (Prod.Lex.toLex_lt_toLex.mpr (.inr ⟨rfl,Prod.Lex.toLex_lt_toLex.mpr (.inl ?_)⟩))
      simp [finished]
    | some time =>
      refine .inl ?_
      rw [Option.some_or,← settled row member (by simp [finished]),← finished]
  | newAction a operation cell db after admitted =>
    rw [admitted.result]
    exact touch_advances a.workspace a.sessionId a.acceptedAt db
  | result home id session phase artifact completedAt db => exact touch_advances home session completedAt db
  | acknowledge _ _ _ _ _ _ _ _ _ acknowledged =>
    rw [(recordUpdateReceipt_ok.mp acknowledged.result).2]
    exact .refl _ _
  | accept _ _ _ _ _ _ _ _ _ accepted =>
    rw [accepted.after_eq]
    exact .refl _ _
  | purge cell db =>
    have same : sessionsIn workspace instanceId (purged cell db) = sessionsIn workspace instanceId db :=
      db.sessions.filter_delete _ fun row gone here =>
        spared ⟨gone.1.symm.trans here.1,gone.2.symm.trans here.2⟩
    rw [same]
    exact .refl _ _
  | _ => exact .refl _ _

omit [CoreFunctions] in
private theorem Settled.touch (settled : Settled db) (home id : String) (now : Int) :
    Settled (touchSession home id now db) := by
  intro row member
  rcases mem_touchSession.mp member with ⟨old,_⟩ | ⟨old,held,_,rfl⟩
  · exact settled row old
  · exact settled old held

theorem Settled.execute {answer : statement.Answer} (settled : Settled db)
    (executed : execute statement db = .ok (answer,after)) : Settled after := by
  cases write : execute_write executed with
  | openSession workspace principal experiment instanceId requested context id now session db =>
    obtain ⟨_,_,_,_,unfinished,same | ⟨_,_,_,_,_,same⟩⟩ := trackSessionTx_ok executed
    · have sessions : db.sessions.insert session = db.sessions := congrArg Db.sessions same
      exact fun row member => settled row (sessions ▸ member)
    · have sessions : db.sessions.insert session = db.sessions.insert answer := congrArg Db.sessions same
      intro row member finished
      rcases Table.mem_insert.mp (sessions ▸ member) with old | ⟨rfl,_⟩
      · exact settled row old finished
      · simp [unfinished] at finished
  | finishSessions statement chosen now db =>
    intro row member finished
    rcases (Table.mem_update (by exact fun _ => rfl)).mp member with ⟨old,_⟩ | ⟨old,_,_,rfl⟩
    · exact settled row old finished
    · rfl
  | newAction a operation cell db after admitted =>
    rw [admitted.result]
    exact settled.touch a.workspace a.sessionId a.acceptedAt
  | result home id session phase artifact completedAt db => exact settled.touch home session completedAt
  | acknowledge _ _ _ _ _ _ _ _ _ acknowledged =>
    rw [(recordUpdateReceipt_ok.mp acknowledged.result).2]
    exact settled
  | accept _ _ _ _ _ _ _ _ _ accepted =>
    rw [accepted.after_eq]
    exact settled
  | purge => exact fun row member => settled row (Table.mem_delete.mp member).1
  | _ => exact settled
/-! ### Runs -/

omit [CoreFunctions] in
/-- None of the events purges the instance: they are of one incarnation of the cell. -/
def OneIncarnation (workspace instanceId : String) (events : List Event) : Prop :=
  ∀ event ∈ events, ∀ statement ∈ event.did, Spares workspace instanceId statement

instance (workspace instanceId : String) (events : List Event) :
    Decidable (OneIncarnation workspace instanceId events) := by
  unfold OneIncarnation
  infer_instance

private theorem Reached.advances {config : Config} (reached : Reached config) (workspace instanceId : String) :
    ∀ event ∈ config.log, (∀ statement ∈ event.did, Spares workspace instanceId statement) →
      Advances (total ActionRow.weight) (activity workspace instanceId event.before)
          (activity workspace instanceId event.after) ∧
        Advances (total Session.weight) (sessionsIn workspace instanceId event.before)
          (sessionsIn workspace instanceId event.after) := by
  have facts := (reached.warranted _ reached.vetted).2.and reached.committed
  refine (reached.linked.induction (Φ := fun _ db => Settled db) facts ?_ ?_).2.all
  · exact fun row member => absurd member (Table.not_mem_empty row)
  · rintro _ event settled ⟨⟨_,allowed⟩,committed⟩
    cases did : event.did with
    | none =>
      rw [Interleaving.Committed,did] at committed
      rw [committed]
      exact ⟨settled,fun _ => ⟨.refl _ _,.refl _ _⟩⟩
    | some statement =>
      rw [Interleaving.Committed,did] at committed
      obtain ⟨answer,executed⟩ := committed
      obtain ⟨fits,_,write⟩ := allowed statement did
      exact ⟨settled.execute executed,fun spared =>
        ⟨write.activity_advances fits (spared statement rfl),write.sessions_advance settled (spared statement rfl)⟩⟩

/-- The view of an instance is the same at all points of a stretch of a log. -/
def Unchanged {α : Type} (view : Db → α) (between older : List Event) : Prop :=
  ∀ later earlier, between = later ++ earlier →
    view (stateAfter Db.empty (earlier ++ older)) = view (stateAfter Db.empty older)

private theorem unchanged_of {α μ : Type} [PartialOrder μ] {weight : α → μ} {view : Db → α} {config : Config}
    (reached : Reached config) {newer between older : List Event} (log : config.log = newer ++ (between ++ older))
    (steps : ∀ event ∈ between, Advances weight (view event.before) (view event.after))
    (same : weight (view (stateAfter Db.empty (between ++ older))) = weight (view (stateAfter Db.empty older))) :
    Unchanged view between older := by
  have linked := reached.linked
  rw [log] at linked
  exact fun later earlier split => linked.suffix.unchanged steps same split

private theorem activityObservationDigest_alone {principal digest : String}
    (digested : Alone execute (activityObservationDigest workspace principal instanceId) db digest after) :
    ∃ incarnation, digest =
      digestJson (.observation workspace instanceId incarnation (activityCounts workspace instanceId db)) := by
  simp only [activityObservationDigest,alone_bind,alone_query] at digested
  obtain ⟨_,_,⟨_,rfl⟩,_,_,⟨_,rfl⟩,_,_,⟨_,rfl⟩,identity,_,⟨_,rfl⟩,⟨⟩,_⟩ := digested
  exact ⟨identity.instanceKey,rfl⟩

private theorem sessionObservationDigest_alone {rowid : Session → Int} {principal digest : String}
    (digested : Alone execute (sessionObservationDigest rowid workspace principal instanceId) db digest after) :
    ∃ incarnation, digest =
      digestJson (.observation workspace instanceId incarnation (sessionCounts rowid workspace instanceId db)) := by
  simp only [sessionObservationDigest,alone_bind,alone_query] at digested
  obtain ⟨_,_,⟨_,rfl⟩,identity,_,⟨_,rfl⟩,⟨⟩,_⟩ := digested
  exact ⟨identity.instanceKey,rfl⟩

/-- Within one incarnation of a cell, two points with the same numbers have the
    same actions, as has every point between them; so have two points with one
    digest, where the digest is injective. -/
theorem activity_unchanged {config : Config} (reached : Reached config) {newer between older : List Event}
    (log : config.log = newer ++ (between ++ older)) {workspace instanceId : String}
    (one : OneIncarnation workspace instanceId between) :
    let first := stateAfter Db.empty older
    let last := stateAfter Db.empty (between ++ older)
    (activityCounts workspace instanceId last = activityCounts workspace instanceId first →
      Unchanged (activity workspace instanceId) between older) ∧
    ∀ principal digest, Function.Injective (digestJson : Digestible → String) →
      Alone execute (activityObservationDigest workspace principal instanceId) first digest first →
      Alone execute (activityObservationDigest workspace principal instanceId) last digest last →
      Unchanged (activity workspace instanceId) between older := by
  intro first last
  have told : activityCounts workspace instanceId last = activityCounts workspace instanceId first →
      Unchanged (activity workspace instanceId) between older := by
    intro same
    refine unchanged_of reached log (fun event member => ?_) (?_ : total ActionRow.weight _ = total ActionRow.weight _)
    · exact (reached.advances workspace instanceId event (by simp [log,member]) (one event member)).1
    · simp only [activityCounts,List.cons.injEq,Nat.cast_inj] at same
      obtain ⟨_,_,pending,running,succeeded,failed,cancelled,_⟩ := same
      rw [total_activity,total_activity,pending,running,succeeded,failed,cancelled]
  refine ⟨told,fun principal digest injective before after => told ?_⟩
  obtain ⟨_,rfl⟩ := activityObservationDigest_alone before
  obtain ⟨_,alike⟩ := activityObservationDigest_alone after
  exact (Digestible.observation.inj (injective alike)).2.2.2.symm

/-- Within one incarnation of a cell, two points with the same numbers have the
    same sessions, as has every point between them; so have two points with one
    digest, where the digest is injective. -/
theorem sessions_unchanged {config : Config} (reached : Reached config) {newer between older : List Event}
    (log : config.log = newer ++ (between ++ older)) {workspace instanceId : String}
    (one : OneIncarnation workspace instanceId between) (rowid rowid' : Session → Int) :
    let first := stateAfter Db.empty older
    let last := stateAfter Db.empty (between ++ older)
    (sessionCounts rowid' workspace instanceId last = sessionCounts rowid workspace instanceId first →
      Unchanged (sessionsIn workspace instanceId) between older) ∧
    ∀ principal digest, Function.Injective (digestJson : Digestible → String) →
      Alone execute (sessionObservationDigest rowid workspace principal instanceId) first digest first →
      Alone execute (sessionObservationDigest rowid' workspace principal instanceId) last digest last →
      Unchanged (sessionsIn workspace instanceId) between older := by
  intro first last
  have told : sessionCounts rowid' workspace instanceId last = sessionCounts rowid workspace instanceId first →
      Unchanged (sessionsIn workspace instanceId) between older := by
    intro same
    refine unchanged_of reached log (fun event member => ?_) (?_ : total Session.weight _ = total Session.weight _)
    · exact (reached.advances workspace instanceId event (by simp [log,member]) (one event member)).2
    · simp only [sessionCounts,List.cons.injEq,Nat.cast_inj] at same
      obtain ⟨count,_,activity,finished,_⟩ := same
      rw [total_sessions,total_sessions,count,activity,finished]
  refine ⟨told,fun principal digest injective before after => told ?_⟩
  obtain ⟨_,rfl⟩ := sessionObservationDigest_alone before
  obtain ⟨_,alike⟩ := sessionObservationDigest_alone after
  exact (Digestible.observation.inj (injective alike)).2.2.2.symm
end

section
attribute [local instance] CoreFunctions.sample

/-- Two cells with an operation each, of which the second is ended while the first is observed. -/
def neighbours : Config :=
  ran (inTurn (prepared [("one",["alice"])] ++ [sampleInstance "cell-1" "n" "k1" ["alice"],
    sampleInstance "cell-2" "m" "k2" ["alice"],.createExperiment "w" "p" "run-1" "cell-1" "k3" 1,
    .createExperiment "w" "p" "run-2" "cell-2" "k4" 1,
    .createOperation ⟨"w","p","cell-1","run-1","",
      "logs-1",.componentLogs,.null,"k5",.cellOperate,none⟩ "context" 1 1 1,
    .createOperation ⟨"w","p","cell-2","run-2","",
      "logs-2",.componentLogs,.null,"k6",.cellOperate,none⟩ "context" 1 1 1,
    .recordOperationResult "w" "logs-2" .succeeded .null 2]))

/-- The events of the last call. -/
def endingBetween : List Event := neighbours.log.take 3

/-- The events before it. -/
def endingOlder : List Event := neighbours.log.drop 3

set_option maxRecDepth 100000 in
theorem activity_unchanged_neighbours : (∃ event ∈ endingBetween, event.after.actions ≠ event.before.actions) ∧
    Unchanged (activity "w" "cell-1") endingBetween endingOlder ∧
      (activity "w" "cell-1" (stateAfter Db.empty endingOlder)).map ActionRow.id = ["logs-1"] := by
  have seen : OneIncarnation "w" "cell-1" endingBetween ∧
      (∃ event ∈ endingBetween, event.after.actions ≠ event.before.actions) ∧
      activityCounts "w" "cell-1" (stateAfter Db.empty (endingBetween ++ endingOlder)) =
        activityCounts "w" "cell-1" (stateAfter Db.empty endingOlder) ∧
      (activity "w" "cell-1" (stateAfter Db.empty endingOlder)).map ActionRow.id = ["logs-1"] := by
    decide +kernel
  obtain ⟨one,moved,same,rows⟩ := seen
  have log : neighbours.log = [] ++ (endingBetween ++ endingOlder) := by
    rw [List.nil_append,endingBetween,endingOlder,List.take_append_drop]
  have reached : Reached neighbours := ran_reached _
  exact ⟨moved,(activity_unchanged reached log one).1 same,rows⟩

set_option maxRecDepth 100000 in
theorem sessions_unchanged_neighbours : (∃ event ∈ endingBetween, event.after.sessions ≠ event.before.sessions) ∧
    Unchanged (sessionsIn "w" "cell-1") endingBetween endingOlder ∧
      (sessionsIn "w" "cell-1" (stateAfter Db.empty endingOlder)).map Session.experimentId = ["run-1"] := by
  have seen : OneIncarnation "w" "cell-1" endingBetween ∧
      (∃ event ∈ endingBetween, event.after.sessions ≠ event.before.sessions) ∧
      sessionCounts (fun _ => 1) "w" "cell-1" (stateAfter Db.empty (endingBetween ++ endingOlder)) =
        sessionCounts (fun _ => 1) "w" "cell-1" (stateAfter Db.empty endingOlder) ∧
      (sessionsIn "w" "cell-1" (stateAfter Db.empty endingOlder)).map Session.experimentId = ["run-1"] := by
    decide +kernel
  obtain ⟨one,moved,same,rows⟩ := seen
  have log : neighbours.log = [] ++ (endingBetween ++ endingOlder) := by
    rw [List.nil_append,endingBetween,endingOlder,List.take_append_drop]
  have reached : Reached neighbours := ran_reached _
  exact ⟨moved,(sessions_unchanged reached log one (fun _ => 1) fun _ => 1).1 same,rows⟩
end

end Proofstorm.Store
