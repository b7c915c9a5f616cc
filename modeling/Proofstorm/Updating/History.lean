import Proofstorm.Updating.Cluster
import Proofstorm.Store.Retained

/-!
What the journal has accepted of one instance. Generations are only added, each
with the revision it leads to (`Grows`); the data that an update lists for
deletion is retained until that update is applied, so no component of the newest
revision is listed by an update that is still pending (`Tracked.clean`).
-/
namespace Proofstorm.Updating
open Proofstorm.Core
open Proofstorm.Store (Accepted Acknowledged Db InstanceRow Retention UpdateChain UpdateRow appliedTo updateState)

/-- The journal before the run: the instance is in its first generation, and the
    revisions are stored under their digests, in the workspaces that published them. -/
structure Journal where
  db : Db
  row : InstanceRow
  revision : PublishedRevision
  live : row ∈ db.instances
  stored : ∀ stored ∈ db.revisions, stored.revision.digest = stored.digest ∧ stored.revision.workspaceId = stored.workspaceId
  published : ∃ stored ∈ db.revisions, stored.revision = revision
  current : revision.digest = row.revisionDigest
  quiet : Store.Quiet row.workspaceId row.id db
  unretained : ∀ c, ¬ db.retainedComponents.has (row.workspaceId,row.id,c)

namespace Journal

variable (journal : Journal)

/-- A revision of the journal. -/
def Known (revision : PublishedRevision) : Prop := ∃ stored ∈ journal.db.revisions, stored.revision = revision

def generation (db : Db) : Nat := (updateState journal.row.workspaceId journal.row.id db).generation

def applied (db : Db) : Nat := (updateState journal.row.workspaceId journal.row.id db).appliedGeneration

/-- What `pending_updates` selects. -/
def Pends (db : Db) : Prop :=
  journal.applied db < journal.generation db ∧ (updateState journal.row.workspaceId journal.row.id db).closing = false

/-- An accepted update of the instance. -/
def Has (db : Db) (update : UpdateRow) : Prop := update ∈ db.cellUpdates ∧ update.Of journal.row

/-- The revision that was accepted at a generation. -/
def AcceptedAt (db : Db) (generation : Nat) (digest : String) : Prop :=
  (generation = 1 ∧ digest = journal.row.revisionDigest) ∨
    ∃ update, journal.Has db update ∧ update.generation = generation ∧ update.plan.targetRevision = digest

/-- The updates of the instance are kept, and those that come have later generations. -/
structure Grows (db after : Db) : Prop where
  kept : ∀ update, journal.Has db update → journal.Has after update
  added : ∀ update, journal.Has after update → journal.Has db update ∨ journal.generation db < update.generation
  generation : journal.generation db ≤ journal.generation after
  applied : journal.applied db ≤ journal.applied after
  closing : (updateState journal.row.workspaceId journal.row.id after).closing =
    (updateState journal.row.workspaceId journal.row.id db).closing

/-- The journal has the instance, whose updates lead from its first revision to the one it has. -/
structure Tracked (db : Db) (row : InstanceRow) : Prop where
  live : row ∈ db.instances
  home : row.workspaceId = journal.row.workspaceId
  named : row.id = journal.row.id
  incarnation : row.instanceKey = journal.row.instanceKey
  chain : UpdateChain journal.row row db
  retention : Retention journal.Known row db
  remembered : ∀ update, journal.Has db update → journal.applied db < update.generation →
    ∀ c ∈ update.plan.changes.removed, db.retainedComponents.has (journal.row.workspaceId,journal.row.id,c)
  known : ∃ revision, journal.Known revision ∧ revision.digest = row.revisionDigest
  revisions : db.revisions = journal.db.revisions

/-- What the calls of a run execute in the journal. -/
def Permitted [CoreFunctions] : Store.Statement → Prop
  | .acceptUpdate workspace principal key plan revision now =>
    Store.Warranted journal.Known (.acceptUpdate workspace principal key plan revision now)
  | .markUpdateApplied workspace id _ _ => workspace = journal.row.workspaceId ∧ id = journal.row.id
  | _ => False
end Journal

section
variable {journal : Journal} {db after last : Db} {row : InstanceRow}

/-- A digest is that of one revision. -/
theorem Journal.Known.unique {a b : PublishedRevision} (left : journal.Known a) (right : journal.Known b)
    (same : a.digest = b.digest) : a = b := by
  obtain ⟨one,inOne,rfl⟩ := left
  obtain ⟨two,inTwo,rfl⟩ := right
  rw [Table.eq_of_key inOne inTwo (((journal.stored one inOne).1.symm.trans same).trans (journal.stored two inTwo).1)]

theorem Journal.Grows.refl (journal : Journal) (db : Db) : journal.Grows db db :=
  ⟨fun _ has => has,fun _ has => .inl has,le_rfl,le_rfl,rfl⟩

theorem Journal.Grows.trans (first : journal.Grows db after) (second : journal.Grows after last) : journal.Grows db last := by
  refine ⟨fun update has => second.kept update (first.kept update has),fun update has => ?_,
    first.generation.trans second.generation,first.applied.trans second.applied,second.closing.trans first.closing⟩
  rcases second.added update has with before | new
  · exact first.added update before
  · exact .inr (Nat.lt_of_le_of_lt first.generation new)

theorem Journal.AcceptedAt.later {generation : Nat} {digest : String} (accepted : journal.AcceptedAt db generation digest)
    (grows : journal.Grows db after) : journal.AcceptedAt after generation digest :=
  accepted.imp_right fun ⟨update,has,rest⟩ => ⟨update,grows.kept update has,rest⟩

/-- The journal as the run finds it. -/
theorem Journal.tracked (journal : Journal) : journal.Tracked journal.db journal.row :=
  ⟨journal.live,rfl,rfl,rfl,journal.quiet.chain,
    .first (fun update member own => journal.quiet.1 update member own) journal.unretained,
    fun update has => absurd has.2 (journal.quiet.1 update has.1),
    ⟨journal.revision,journal.published,journal.current⟩,rfl⟩

namespace Journal.Tracked

variable (tracked : journal.Tracked db row)
include tracked

theorem has_iff (update : UpdateRow) : journal.Has db update ↔ update ∈ db.cellUpdates ∧ update.Of row := by
  rw [Journal.Has,UpdateRow.Of,UpdateRow.Of,tracked.home,tracked.named]

theorem state : updateState row.workspaceId row.id db = updateState journal.row.workspaceId journal.row.id db := by
  rw [tracked.home,tracked.named]

theorem bounds {update : UpdateRow} (has : journal.Has db update) :
    2 ≤ update.generation ∧ update.generation ≤ journal.generation db := by
  obtain ⟨member,own⟩ := (tracked.has_iff update).mp has
  have bounds := tracked.chain.bounds member own.1 own.2
  rwa [tracked.state] at bounds

/-- The instance has the revision of its newest generation. -/
theorem current : journal.AcceptedAt db (journal.generation db) row.revisionDigest := by
  rcases tracked.chain.current with ⟨first,same,_⟩ | ⟨update,member,home,named,newest,same,_⟩
  · rw [tracked.state] at first
    exact .inl ⟨first,same⟩
  · rw [tracked.state] at newest
    exact .inr ⟨update,(tracked.has_iff update).mpr ⟨member,home,named⟩,newest,same.symm⟩

theorem generation_pos : 1 ≤ journal.generation db := by
  have bounds := tracked.chain.applied
  rw [tracked.state] at bounds
  exact bounds.1.trans bounds.2

/-- No component of the revision that the instance has is listed for deletion by a pending update. -/
theorem clean {revision : PublishedRevision} (known : journal.Known revision) (same : revision.digest = row.revisionDigest)
    {update : UpdateRow} (has : journal.Has db update) (pending : journal.applied db < update.generation) {c : String}
    (listed : c ∈ update.plan.changes.deletedData) : c ∉ revision.cell.ids := by
  intro present
  obtain ⟨member,own⟩ := (tracked.has_iff update).mp has
  have waiting : appliedTo row db < update.generation := by
    rw [appliedTo,tracked.state]
    exact pending
  obtain ⟨held,_⟩ := tracked.retention.pending update member own waiting c listed
  exact tracked.retention.disjoint c held ⟨revision,known,same,present⟩
end Journal.Tracked

section
variable [CoreFunctions]

/-- An accepted update is one generation more. -/
theorem Journal.Tracked.accept {workspace principal k : String} {plan : CellUpdatePlan} {old revision : PublishedRevision}
    {now : Int} {cell : InstanceRow} (tracked : journal.Tracked db row)
    (accepted : Accepted workspace principal k plan revision now cell db after) (describes : plan.Describes old revision)
    (knownOld : journal.Known old) (known : journal.Known revision) :
    journal.Grows db after ∧ ∃ row, journal.Tracked after row := by
  have kept : after.revisions = db.revisions := by
    rw [accepted.after_eq]
    rfl
  have revisions := kept.trans tracked.revisions
  by_cases here : journal.row.workspaceId = workspace ∧ journal.row.id = plan.target.instanceId
  · obtain rfl : cell = row := Table.eq_of_key accepted.member tracked.live
      (Prod.ext (accepted.home.trans (here.1.symm.trans tracked.home.symm))
        (accepted.named.trans (here.2.symm.trans tracked.named.symm)))
    have state : updateState journal.row.workspaceId journal.row.id after =
        { updateState journal.row.workspaceId journal.row.id db with generation := plan.target.expectedGeneration + 1 } := by
      rw [Store.updateState_accept accepted,if_pos here]
    have before : journal.generation db = plan.target.expectedGeneration := by
      rw [Journal.generation,here.1,here.2]
      exact accepted.generation
    have generation : journal.generation after = journal.generation db + 1 := by
      rw [Journal.generation,state,before]
    have applied : journal.applied after = journal.applied db := by
      rw [Journal.applied,state]
      rfl
    refine ⟨⟨fun update has => ⟨accepted.mem_cellUpdates.mpr (.inl has.1),has.2⟩,fun update has => ?_,
      generation ▸ Nat.le_succ _,applied.ge,by rw [state]⟩,{ cell with revisionDigest := revision.digest, lockDigest := revision.lock.digest },?_⟩
    · rcases accepted.mem_cellUpdates.mp has.1 with old | rfl
      · exact .inl ⟨old,has.2⟩
      · exact .inr (before ▸ Nat.lt_succ_self _)
    · exact
        { live := accepted.mem_instances.mpr (.inr rfl)
          home := tracked.home
          named := tracked.named
          incarnation := tracked.incarnation
          chain := tracked.chain.accept accepted describes
          retention := tracked.retention.accept (fun _ _ => Journal.Known.unique) accepted describes knownOld known
            fun update member own => before ▸ (tracked.bounds ((tracked.has_iff update).mpr ⟨member,own⟩)).2
          remembered := fun update has pending c removed => by
            rw [accepted.retained_iff]
            rcases accepted.mem_cellUpdates.mp has.1 with old | rfl
            · exact .inl (tracked.remembered update ⟨old,has.2⟩ (applied ▸ pending) c removed)
            · exact .inr ⟨here.1,here.2,removed⟩
          known := ⟨revision,known,rfl⟩
          revisions := revisions }
  · have other : ¬ (row.workspaceId = workspace ∧ row.id = plan.target.instanceId) :=
      fun same => here ⟨tracked.home.symm.trans same.1,tracked.named.symm.trans same.2⟩
    have state : updateState journal.row.workspaceId journal.row.id after =
        updateState journal.row.workspaceId journal.row.id db := by
      rw [Store.updateState_accept accepted,if_neg here]
    have mine : ∀ update : UpdateRow, update.Of journal.row → (update ∈ after.cellUpdates ↔ update ∈ db.cellUpdates) := by
      intro update own
      rw [accepted.mem_cellUpdates]
      refine ⟨fun member => member.elim id ?_,.inl⟩
      rintro rfl
      exact absurd ⟨own.1.symm,own.2.symm⟩ here
    have same : ∀ update : UpdateRow, update.Of row → (update ∈ after.cellUpdates ↔ update ∈ db.cellUpdates) := by
      intro update own
      exact mine update ⟨own.1.trans tracked.home,own.2.trans tracked.named⟩
    refine ⟨⟨fun update has => ⟨(mine update has.2).mpr has.1,has.2⟩,fun update has => .inl ⟨(mine update has.2).mp has.1,has.2⟩,
      by rw [Journal.generation,Journal.generation,state],by rw [Journal.applied,Journal.applied,state],by rw [state]⟩,row,?_⟩
    exact
      { live := accepted.mem_instances.mpr (.inl ⟨tracked.live,other⟩)
        home := tracked.home
        named := tracked.named
        incarnation := tracked.incarnation
        chain := tracked.chain.frame ⟨rfl,rfl,rfl,rfl⟩ (fun update home named => same update ⟨home,named⟩)
          (by rw [tracked.home,tracked.named,state]) (by rw [tracked.home,tracked.named,state,← tracked.state]; exact tracked.chain.applied)
        retention := tracked.retention.frame same (by rw [appliedTo,appliedTo,tracked.home,tracked.named,state])
          fun c => by
            rw [accepted.retained_iff]
            exact or_iff_left fun found => other ⟨found.1,found.2.1⟩
        remembered := fun update has pending c removed => by
          rw [accepted.retained_iff]
          rw [Journal.applied,state] at pending
          exact .inl (tracked.remembered update ⟨(mine update has.2).mp has.1,has.2⟩ pending c removed)
        known := tracked.known
        revisions := revisions }

omit [CoreFunctions] in
/-- The newest generation is applied. -/
theorem Journal.Tracked.apply (tracked : journal.Tracked db row) {generation : Nat} (converged : Option String)
    (newest : journal.generation db = generation) :
    journal.Grows db (Store.withApplied journal.row.workspaceId journal.row.id generation converged db) ∧
      journal.applied (Store.withApplied journal.row.workspaceId journal.row.id generation converged db) = generation ∧
      journal.Tracked (Store.withApplied journal.row.workspaceId journal.row.id generation converged db) row := by
  obtain ⟨same,closing,applied⟩ := Store.updateState_apply newest converged journal.row.workspaceId journal.row.id
  have reach := tracked.chain.applied
  rw [tracked.state] at reach
  have done : journal.applied (Store.withApplied journal.row.workspaceId journal.row.id generation converged db) = generation := by
    rw [Journal.applied,applied,if_pos ⟨rfl,rfl⟩]
    exact Nat.max_eq_right (reach.2.trans newest.le)
  refine ⟨⟨fun _ has => has,fun _ has => .inl has,same.ge,?_,closing⟩,done,?_⟩
  · rw [done]
    exact reach.2.trans newest.le
  · exact
      { live := tracked.live
        home := tracked.home
        named := tracked.named
        incarnation := tracked.incarnation
        chain := tracked.chain.frame ⟨rfl,rfl,rfl,rfl⟩ (fun _ _ _ => Iff.rfl)
          (by rw [tracked.home,tracked.named,same])
          (by
            rw [tracked.home,tracked.named]
            exact ⟨reach.1.trans (by rw [applied,if_pos ⟨rfl,rfl⟩]; exact le_max_left _ _),done.le.trans newest.ge⟩)
        retention := by
          rw [← tracked.home,← tracked.named]
          refine tracked.retention.apply ?_ ?_ converged fun update member own =>
            (tracked.bounds ((tracked.has_iff update).mpr ⟨member,own⟩)).2.trans newest.le
          · rw [tracked.state]
            exact newest
          · rw [appliedTo,tracked.state]
            exact reach.2.trans newest.le
        remembered := fun update has pending => absurd ((tracked.bounds has).2.trans newest.le) (Nat.not_le.mpr (done ▸ pending))
        known := tracked.known
        revisions := tracked.revisions }

/-- What a statement of a run does to the history of the instance. -/
theorem Journal.Tracked.step {statement : Store.Statement} {answer : statement.Answer} (tracked : journal.Tracked db row)
    (permitted : journal.Permitted statement) (executed : Store.execute statement db = .ok (answer,after)) :
    journal.Grows db after ∧ (∃ row, journal.Tracked after row) ∧ (journal.applied after = journal.applied db ∨
      ∃ converged, statement = .markUpdateApplied journal.row.workspaceId journal.row.id (journal.generation db) converged ∧
        journal.applied after = journal.generation db) := by
  cases statement with
  | acceptUpdate workspace principal k plan revision now =>
    obtain ⟨_,known,_,old,knownOld,_,describes⟩ := permitted
    obtain ⟨cell,_,_,_,_,⟨rfl,_⟩ | acknowledged | accepted⟩ := Store.acceptUpdateTx_ok executed
    · exact ⟨.refl _ _,⟨row,tracked⟩,.inl rfl⟩
    · obtain ⟨_,rfl⟩ := Store.recordUpdateReceipt_ok.mp acknowledged.result
      exact ⟨⟨fun _ has => has,fun _ has => .inl has,le_rfl,le_rfl,rfl⟩,⟨row,
        { tracked with
          chain := tracked.chain.congr rfl rfl
          retention := tracked.retention.congr rfl rfl rfl }⟩,.inl rfl⟩
    · obtain ⟨grows,next⟩ := tracked.accept accepted describes knownOld known
      refine ⟨grows,next,.inl ?_⟩
      rw [Journal.applied,Journal.applied,Store.updateState_accept accepted]
      split <;> rfl
  | markUpdateApplied workspace id generation converged =>
    obtain ⟨rfl,rfl⟩ := permitted
    rcases Store.markUpdateAppliedTx_ok executed with rfl | ⟨newest,rfl⟩
    · exact ⟨.refl _ _,⟨row,tracked⟩,.inl rfl⟩
    · obtain ⟨grows,done,still⟩ := tracked.apply converged newest
      obtain rfl : journal.generation db = generation := newest
      exact ⟨grows,⟨row,still⟩,.inr ⟨converged,rfl,done⟩⟩
  | _ => exact permitted.elim
end

end

end Proofstorm.Updating
