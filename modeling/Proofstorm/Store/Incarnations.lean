import Proofstorm.Store.Journal
import Proofstorm.Store.Observed

/-!
One incarnation of a cell in the store, from its materialization to its purge. Its
operations are numbered from one on and keep what they were admitted with
(`operations_numbered`). What the rows of a store refer to is there in every state
(`tables_agree`).
-/
namespace Proofstorm.Store
open Proofstorm.Core
open Proofstorm.Interleaving (Throughout stateAfter Linked)

/-! ### Operations -/

/-- The row as it was admitted. -/
def ActionRow.admitted (row : ActionRow) : ActionRow :=
  { row with phase := .pending, artifact := none, startedAt := none, completedAt := none }

/-- The operations of an instance as they were admitted. -/
def admittedRows (workspace instanceId : String) (db : Db) : List ActionRow :=
  (activity workspace instanceId db).map ActionRow.admitted

/-- The operations of each instance have the numbers from one on, in the order of their admission. -/
def Numbered (db : Db) : Prop := ∀ workspace instanceId, (admittedRows workspace instanceId db).map ActionRow.sequence =
  List.range' 1 (admittedRows workspace instanceId db).length

theorem foldl_max_range' (n : Nat) : (List.range' 1 n).foldl max 0 = n := by
  induction n with
  | zero => rfl
  | succ n ih =>
    rw [List.range'_concat,List.foldl_append,ih]
    simp only [List.foldl_cons,List.foldl_nil]
    omega

theorem Numbered.last {db : Db} (numbered : Numbered db) (workspace instanceId : String) :
    lastSequence workspace instanceId db = (admittedRows workspace instanceId db).length := by
  have rows : (admittedRows workspace instanceId db).map ActionRow.sequence =
      (activity workspace instanceId db).map ActionRow.sequence := by
    simp [admittedRows,ActionRow.admitted,Function.comp_def]
  have same : lastSequence workspace instanceId db =
      ((admittedRows workspace instanceId db).map ActionRow.sequence).foldl max 0 := by rw [rows]; rfl
  rw [same,numbered,foldl_max_range']

section
variable [CoreFunctions] {statement : Statement} {db after : Db} {workspace instanceId : String}

omit [CoreFunctions] in
private theorem admittedRows_update {q : ActionRow → Prop} [DecidablePred q] {f : ActionRow → ActionRow}
    (keeps : ∀ row, key (f row) = key row) (sessions : Table Session)
    (same : ∀ row, (f row).admitted = row.admitted) :
    admittedRows workspace instanceId { db with sessions := sessions, actions := db.actions.update q f keeps } =
      admittedRows workspace instanceId db := by
  have place : ∀ row, (f row).workspaceId = row.workspaceId ∧ (f row).instanceId = row.instanceId := by
    intro row
    have alike := same row
    simp only [ActionRow.admitted,ActionRow.mk.injEq] at alike
    exact ⟨alike.1,alike.2.2.1⟩
  simp only [admittedRows,activity,Table.update,List.filter_map,List.map_map]
  have kind : ((fun row : ActionRow => decide (row.workspaceId = workspace ∧ row.instanceId = instanceId)) ∘
      fun row => if q row then f row else row) = fun row => decide (row.workspaceId = workspace ∧ row.instanceId = instanceId) := by
    funext row
    by_cases chosen : q row <;> simp [chosen,place]
  rw [kind]
  refine List.map_congr_left fun row _ => ?_
  by_cases chosen : q row <;> simp [chosen,same]

/-- A statement admits at most one operation of an instance, with the next number, and
    only a purge takes operations away. -/
theorem Write.admits (write : Write statement db after) :
    admittedRows workspace instanceId after = admittedRows workspace instanceId db ∨
      ((updateState workspace instanceId db).closing = false ∧ ∃ row : ActionRow,
        row.sequence = lastSequence workspace instanceId db + 1 ∧
          admittedRows workspace instanceId after = admittedRows workspace instanceId db ++ [row]) ∨
      ¬ Spares workspace instanceId statement ∧ admittedRows workspace instanceId after = [] := by
  cases write with
  | newAction a operation cell db after admitted =>
    rw [admitted.result]
    have rows : (db.actions.insert (a.row (lastSequence a.workspace a.instanceId db + 1))).rows = _ :=
      Table.insert_of_free admitted.absent
    by_cases here : a.workspace = workspace ∧ a.instanceId = instanceId
    · obtain ⟨rfl,rfl⟩ := here
      refine .inr (.inl ⟨admitted.opened,a.row (lastSequence a.workspace a.instanceId db + 1),rfl,?_⟩)
      rw [admittedRows,activity,rows,List.filter_append,List.map_append]
      simp [Admission.row,admittedRows,activity,ActionRow.admitted]
    · refine .inl ?_
      rw [admittedRows,activity,rows,List.filter_append]
      simp [Admission.row,here,admittedRows,activity]
  | result => exact .inl (admittedRows_update (by exact fun _ => rfl) _ (by exact fun _ => rfl))
  | start => exact .inl (admittedRows_update (by exact fun _ => rfl) _ (by exact fun _ => rfl))
  | acknowledge _ _ _ _ _ _ _ _ _ acknowledged =>
    rw [(recordUpdateReceipt_ok.mp acknowledged.result).2]
    exact .inl rfl
  | accept _ _ _ _ _ _ _ _ _ accepted =>
    rw [accepted.after_eq]
    exact .inl rfl
  | purge cell db =>
    by_cases here : cell.workspaceId = workspace ∧ cell.id = instanceId
    · refine .inr (.inr ⟨fun spared => spared here,List.map_eq_nil_iff.mpr (List.filter_eq_nil_iff.mpr fun row member => ?_)⟩)
      obtain ⟨_,other⟩ := Table.mem_delete.mp member
      simpa [here.1,here.2] using other
    · refine .inl (congrArg (List.map ActionRow.admitted) (db.actions.filter_delete _ fun row gone same => ?_))
      exact here ⟨gone.1.symm.trans same.1,gone.2.symm.trans same.2⟩
  | _ => exact .inl rfl

theorem Numbered.write (numbered : Numbered db) (write : Write statement db after) : Numbered after := by
  intro workspace instanceId
  rcases write.admits with same | ⟨_,row,next,more⟩ | ⟨_,emptied⟩
  · rw [same]
    exact numbered workspace instanceId
  · rw [more,List.map_append,numbered workspace instanceId,List.length_append,List.length_singleton,List.range'_concat,
      List.map_singleton,next,numbered.last]
    congr 2
    omega
  · rw [emptied]
    rfl

/-- What holds of every write that spares an instance holds of the events of one incarnation. -/
theorem Reached.stretch {config : Config} (reached : Reached config) {newer between older : List Event}
    (log : config.log = newer ++ (between ++ older)) (one : OneIncarnation workspace instanceId between)
    {R : Db → Db → Prop} (still : ∀ db, R db db)
    (step : ∀ statement db after, Write statement db after → Spares workspace instanceId statement → R db after) :
    ∀ event ∈ between, R event.before event.after := by
  intro event member
  have facts := (reached.warranted _ reached.vetted).2.and reached.committed
  obtain ⟨⟨_,allowed⟩,committed⟩ := facts.all event (by simp [log,member])
  cases did : event.did with
  | none =>
    rw [Interleaving.Committed,did] at committed
    rw [committed]
    exact still _
  | some statement => exact step _ _ _ (allowed statement did).2.2 (one event member statement did)

/-- The operations of each instance are numbered from one on in the order of their
    admission, in every state of a run, and within one incarnation of a cell they keep
    their numbers, their requests and all that they were admitted with. -/
theorem operations_numbered {config : Config} (reached : Reached config) :
    (Numbered config.state ∧ Throughout (fun _ event => Numbered event.before ∧ Numbered event.after) config.log) ∧
    ∀ newer between older, config.log = newer ++ (between ++ older) → ∀ workspace instanceId,
      OneIncarnation workspace instanceId between → admittedRows workspace instanceId (stateAfter Db.empty older) <+:
        admittedRows workspace instanceId (stateAfter Db.empty (between ++ older)) := by
  refine ⟨reached.always Numbered (fun _ _ => rfl) fun _ _ _ _ _ write numbered => numbered.write write,?_⟩
  intro newer between older log workspace instanceId one
  have linked := reached.linked
  rw [log] at linked
  have steps := reached.stretch log one (R := fun before after =>
    admittedRows workspace instanceId before <+: admittedRows workspace instanceId after)
    (fun _ => List.prefix_refl _) fun statement db after write spared => by
      rcases write.admits with same | ⟨_,row,_,more⟩ | ⟨purges,_⟩
      · exact same ▸ List.prefix_refl _
      · exact more ▸ List.prefix_append _ _
      · exact absurd spared purges
  have path := linked.suffix.path (R := fun before after =>
    admittedRows workspace instanceId before <+: admittedRows workspace instanceId after) steps
  generalize stateAfter Db.empty (between ++ older) = last at path
  induction path with
  | refl => exact List.prefix_refl _
  | tail _ step earlier => exact earlier.trans step

/-! ### Rows that refer to others -/

/-- The tables agree in every state that a run reaches. Every operation has its
    instance, the revision recorded for it, and its run, which is of its instance; the
    runs that are closed are those with a seal, and nothing of them is going on; the
    revision of every instance is there; and an id without an instance is as if it had
    never had one. -/
theorem tables_agree {config : Config} (reached : Reached config) :
    (∀ action ∈ config.state.actions, config.state.instances.has (action.workspaceId,action.instanceId) ∧
      config.state.operationRevisions.has (action.workspaceId,action.id) ∧
      ∃ run ∈ config.state.experiments, run.workspaceId = action.workspaceId ∧ run.id = action.experimentId ∧
        run.instanceId = action.instanceId) ∧
    (∀ row ∈ config.state.operationRevisions, config.state.actions.has (row.workspaceId,row.operationId)) ∧
    (∀ run ∈ config.state.experiments, (run.phase = .closed ↔ config.state.runSeals.has (run.workspaceId,run.id)) ∧
      (run.phase = .closed → ∀ action ∈ config.state.actions, action.workspaceId = run.workspaceId →
        action.experimentId = run.id → action.phase.active = false)) ∧
    (∀ row ∈ config.state.instances, config.state.revisions.has row.revisionDigest) ∧
    ∀ workspace id, ¬ config.state.instances.has (workspace,id) → Quiet workspace id config.state := by
  have journalled := journalled_run reached
  have closed := reached.closed.1
  refine ⟨fun action member => ⟨journalled.housed action member,journalled.revised action member,closed.owned action member⟩,
    journalled.traced,fun run member => ⟨⟨closed.marked run member,?_⟩,closed.idle run member⟩,
    fun row member => ((anchored_run reached).1 row member).1,(chained_run reached).1.2⟩
  rintro ⟨row,there,named⟩
  obtain ⟨ended,present,home,same,shut⟩ := closed.ended row there
  have equal : ended = run := Table.eq_of_key present member ((Prod.ext home same).trans named)
  rw [← equal]
  exact shut
end

/-! ### Two cells -/

section
attribute [local instance] CoreFunctions.sample

theorem operations_numbered_neighbours :
    (admittedRows "w" "cell-1" neighbours.state).map ActionRow.sequence = [1] ∧ Numbered neighbours.state := by
  have reached : Reached neighbours := ran_reached _
  exact ⟨by decide +kernel,(operations_numbered reached).1.1⟩

theorem tables_agree_neighbours : (neighbours.state.actions.rows.map ActionRow.id) = ["logs-1","logs-2"] ∧
    ∀ action ∈ neighbours.state.actions, neighbours.state.instances.has (action.workspaceId,action.instanceId) := by
  have reached : Reached neighbours := ran_reached _
  exact ⟨by decide +kernel,fun action member => ((tables_agree reached).1 action member).1⟩
end

end Proofstorm.Store
