import Proofstorm.Store.UpdateChain

/-!
The data of removed components. A component that an update removes is retained
until an update that lists it for deletion is applied; meanwhile its id is not
added again. `retained_data` says so for every run in which no two revisions
share a digest.
-/
namespace Proofstorm.Store
open Proofstorm.Core
open Proofstorm.Interleaving (Throughout)

section
variable (known : PublishedRevision → Prop)

/-- A component of the revision under a digest. -/
def Contains (digest c : String) : Prop :=
  ∃ revision, known revision ∧ revision.digest = digest ∧ c ∈ revision.cell.ids

def UpdateRow.Of (update : UpdateRow) (row : InstanceRow) : Prop :=
  update.workspaceId = row.workspaceId ∧ update.instanceId = row.id

/-- A revision that the instance has, or that one of its updates led from or to. -/
def Past (row : InstanceRow) (digest : String) (db : Db) : Prop :=
  digest = row.revisionDigest ∨ ∃ update ∈ db.cellUpdates, update.Of row ∧
    (digest = update.plan.baseRevision ∨ digest = update.plan.targetRevision)

/-- The update lists the data of the component for deletion, and no later update removes the component. -/
def Deletes (row : InstanceRow) (update : UpdateRow) (c : String) (db : Db) : Prop :=
  c ∈ update.plan.changes.deletedData ∧ ∀ removal ∈ db.cellUpdates, removal.Of row →
    c ∈ removal.plan.changes.removed → removal.generation ≤ update.generation

def appliedTo (row : InstanceRow) (db : Db) : Nat := (updateState row.workspaceId row.id db).appliedGeneration

structure Retention (row : InstanceRow) (db : Db) : Prop where
  disjoint : ∀ c, db.retainedComponents.has (row.workspaceId,row.id,c) → ¬ Contains known row.revisionDigest c
  kept : ∀ digest c, Past row digest db → Contains known digest c → ¬ Contains known row.revisionDigest c →
    db.retainedComponents.has (row.workspaceId,row.id,c) ∨
      ∃ deletion ∈ db.cellUpdates, deletion.Of row ∧ Deletes row deletion c db ∧ deletion.generation ≤ appliedTo row db
  pending : ∀ deletion ∈ db.cellUpdates, deletion.Of row → appliedTo row db < deletion.generation →
    ∀ c ∈ deletion.plan.changes.deletedData,
      db.retainedComponents.has (row.workspaceId,row.id,c) ∧ Deletes row deletion c db

variable {known}

theorem contains_iff (distinct : ∀ a b, known a → known b → a.digest = b.digest → a = b) {revision : PublishedRevision}
    (vetted : known revision) (c : String) : Contains known revision.digest c ↔ c ∈ revision.cell.ids := by
  constructor
  · rintro ⟨other,also,same,member⟩
    rw [← distinct other revision also vetted same]
    exact member
  · exact fun member => ⟨revision,vetted,rfl,member⟩

/-- What is retained of an instance depends on its own rows only. -/
theorem Retention.frame {row : InstanceRow} {db after : Db} (retention : Retention known row db)
    (updates : ∀ update : UpdateRow, update.Of row → (update ∈ after.cellUpdates ↔ update ∈ db.cellUpdates))
    (applied : appliedTo row after = appliedTo row db)
    (retained : ∀ c, after.retainedComponents.has (row.workspaceId,row.id,c) ↔
      db.retainedComponents.has (row.workspaceId,row.id,c)) : Retention known row after := by
  have deletes : ∀ update c, Deletes row update c after ↔ Deletes row update c db := by
    intro update c
    refine and_congr_right fun _ => forall_congr' fun removal => ?_
    constructor
    · exact fun later member own => later ((updates removal own).mpr member) own
    · exact fun later member own => later ((updates removal own).mp member) own
  constructor
  · intro c held
    exact retention.disjoint c ((retained c).mp held)
  · intro digest c past contained absent
    have before : Past row digest db := by
      rcases past with rfl | ⟨update,member,own,named⟩
      · exact .inl rfl
      · exact .inr ⟨update,(updates update own).mp member,own,named⟩
    rcases retention.kept digest c before contained absent with held | ⟨deletion,member,own,listed,done⟩
    · exact .inl ((retained c).mpr held)
    · exact .inr ⟨deletion,(updates deletion own).mpr member,own,(deletes _ _).mpr listed,by rw [applied]; exact done⟩
  · intro deletion member own waiting c listed
    rw [applied] at waiting
    obtain ⟨held,last⟩ := retention.pending deletion ((updates deletion own).mp member) own waiting c listed
    exact ⟨(retained c).mpr held,(deletes _ _).mpr last⟩

theorem Retention.congr {row : InstanceRow} {db after : Db} (retention : Retention known row db)
    (updates : after.cellUpdates = db.cellUpdates) (states : after.cellUpdateState = db.cellUpdateState)
    (retained : after.retainedComponents = db.retainedComponents) : Retention known row after := by
  apply retention.frame
  · intro update _
    rw [updates]
  · rw [appliedTo,appliedTo,updateState_congr states]
  · intro c
    rw [retained]

/-- Nothing is retained of a new instance. -/
theorem Retention.first {row : InstanceRow} {db : Db} (none_ : ∀ update ∈ db.cellUpdates, ¬ update.Of row)
    (empty : ∀ c, ¬ db.retainedComponents.has (row.workspaceId,row.id,c)) : Retention known row db := by
  constructor
  · exact fun c held => absurd held (empty c)
  · rintro digest c (rfl | ⟨update,member,own,_⟩) contained absent
    · exact absurd contained absent
    · exact absurd own (none_ update member)
  · exact fun deletion member own => absurd own (none_ deletion member)

/-- The retained components after an acceptance. -/
theorem Accepted.retained_iff [CoreFunctions] {workspace principal k : String} {plan : CellUpdatePlan}
    {revision : PublishedRevision} {now : Int} {cell : InstanceRow} {db after : Db}
    (accepted : Accepted workspace principal k plan revision now cell db after) (w i c : String) :
    after.retainedComponents.has (w,i,c) ↔ db.retainedComponents.has (w,i,c) ∨
      (w = workspace ∧ i = plan.target.instanceId ∧ c ∈ plan.changes.removed) := by
  rw [accepted.after_eq]
  simp only [advance]
  constructor
  · rintro ⟨row,member,keyed⟩
    rcases Table.mem_of_mem_insertAll member with old | new
    · exact .inl ⟨row,old,keyed⟩
    · obtain ⟨removed,listed,rfl⟩ := List.mem_map.mp new
      cases keyed
      exact .inr ⟨rfl,rfl,listed⟩
  · rintro (⟨row,member,keyed⟩ | ⟨rfl,rfl,listed⟩)
    · exact ⟨row,Table.mem_insertAll_of_mem member _,keyed⟩
    · exact Table.has_insertAll (List.mem_map.mpr ⟨c,listed,rfl⟩)

/-- The retained components after the current generation is marked applied. -/
theorem retained_withApplied (workspace id : String) (generation : Nat) (converged : Option String) (db : Db) (w i c : String) :
    (withApplied workspace id generation converged db).retainedComponents.has (w,i,c) ↔
      db.retainedComponents.has (w,i,c) ∧ ¬ (w = workspace ∧ i = id ∧
        ∃ plan ∈ pendingPlans workspace id (updateState workspace id db).appliedGeneration db,
          c ∈ plan.changes.deletedData) := by
  simp only [withApplied]
  constructor
  · rintro ⟨row,member,keyed⟩
    obtain ⟨old,stays⟩ := Table.mem_delete.mp member
    cases keyed
    refine ⟨⟨row,old,rfl⟩,?_⟩
    rintro ⟨home,named,listed⟩
    exact stays ⟨home,named,List.mem_flatMap.mpr listed⟩
  · rintro ⟨⟨row,old,keyed⟩,stays⟩
    cases keyed
    refine ⟨row,Table.mem_delete.mpr ⟨old,?_⟩,rfl⟩
    rintro ⟨home,named,listed⟩
    exact stays ⟨home,named,List.mem_flatMap.mp listed⟩

/-- An accepted update keeps what is retained and adds what it removes. -/
theorem Retention.accept [CoreFunctions] {workspace principal k : String} {plan : CellUpdatePlan}
    {old revision : PublishedRevision} {now : Int} {cell : InstanceRow} {db after : Db}
    (distinct : ∀ a b, known a → known b → a.digest = b.digest → a = b) (retention : Retention known cell db)
    (accepted : Accepted workspace principal k plan revision now cell db after) (describes : plan.Describes old revision)
    (vettedOld : known old) (vetted : known revision)
    (earlier : ∀ update ∈ db.cellUpdates, update.Of cell → update.generation ≤ plan.target.expectedGeneration) :
    Retention known { cell with revisionDigest := revision.digest, lockDigest := revision.lock.digest } after := by
  have base : ∀ c, Contains known cell.revisionDigest c ↔ c ∈ old.cell.ids := by
    intro c
    rw [accepted.base,describes.base]
    exact contains_iff distinct vettedOld c
  have next : ∀ c, Contains known revision.digest c ↔ c ∈ revision.cell.ids := contains_iff distinct vetted
  have retained : ∀ c, after.retainedComponents.has (cell.workspaceId,cell.id,c) ↔
      db.retainedComponents.has (cell.workspaceId,cell.id,c) ∨ c ∈ plan.changes.removed := by
    intro c
    rw [accepted.retained_iff]
    simp only [accepted.home,accepted.named,true_and]
  have applied : appliedTo { cell with revisionDigest := revision.digest, lockDigest := revision.lock.digest } after =
      appliedTo cell db := by
    simp only [appliedTo]
    rw [updateState_accept accepted,if_pos ⟨accepted.home,accepted.named⟩]
  have here : cell.workspaceId = workspace ∧ cell.id = plan.target.instanceId := ⟨accepted.home,accepted.named⟩
  constructor
  · intro c held
    rw [next]
    intro current
    rcases (retained c).mp held with before | removed
    · -- A retained component that the new revision has would have been added.
      have absent : c ∉ old.cell.ids := fun present => retention.disjoint c before ((base c).mpr present)
      apply accepted.fresh c ((describes.added c).mpr ⟨current,absent⟩)
      rw [← here.1,← here.2]
      exact before
    · exact ((describes.removed c).mp removed).2 current
  · intro digest c past contained absent
    rw [next] at absent
    by_cases present : c ∈ old.cell.ids
    · exact .inl ((retained c).mpr (.inr ((describes.removed c).mpr ⟨present,absent⟩)))
    · have before : Past cell digest db := by
        rcases past with rfl | ⟨update,member,own,named⟩
        · exact absurd ((next c).mp contained) absent
        · rcases accepted.mem_cellUpdates.mp member with earlier_ | rfl
          · exact .inr ⟨update,earlier_,own,named⟩
          · rcases named with rfl | rfl
            · exact .inl accepted.base.symm
            · rw [show plan.targetRevision = revision.digest from describes.target] at contained
              exact absurd ((next c).mp contained) absent
      rcases retention.kept digest c before contained (fun current => present ((base c).mp current)) with
        held | ⟨deletion,member,own,⟨listed,last⟩,done⟩
      · exact .inl ((retained c).mpr (.inl held))
      · refine .inr ⟨deletion,accepted.mem_cellUpdates.mpr (.inl member),own,⟨listed,?_⟩,by rw [applied]; exact done⟩
        intro removal removes also gone
        rcases accepted.mem_cellUpdates.mp removes with before | rfl
        · exact last removal before also gone
        · exact absurd ((describes.removed c).mp gone).1 present
  · intro deletion member own waiting c listed
    rw [applied] at waiting
    rcases accepted.mem_cellUpdates.mp member with before | rfl
    · obtain ⟨held,_,last⟩ := retention.pending deletion before own waiting c listed
      refine ⟨(retained c).mpr (.inl held),listed,?_⟩
      intro removal removes also gone
      rcases accepted.mem_cellUpdates.mp removes with present | rfl
      · exact last removal present also gone
      · -- What waits for its deletion is retained, so the new update cannot remove it.
        exact absurd ((base c).mpr ((describes.removed c).mp gone).1) (retention.disjoint c held)
    · refine ⟨?_,listed,?_⟩
      · rcases (describes.deletedData c).mp listed with chosen | ⟨_,removed⟩
        · apply (retained c).mpr
          left
          rw [here.1,here.2]
          exact (accepted.retained c chosen).1
        · exact (retained c).mpr (.inr removed)
      · intro removal removes also _
        rcases accepted.mem_cellUpdates.mp removes with present | rfl
        · exact Nat.le_succ_of_le (earlier removal present also)
        · exact Nat.le_refl _

/-- Applying the current generation deletes what the updates up to it list. -/
theorem Retention.apply {row : InstanceRow} {db : Db} (retention : Retention known row db) {generation : Nat}
    (current : (updateState row.workspaceId row.id db).generation = generation)
    (applied : appliedTo row db ≤ generation) (converged : Option String)
    (bound : ∀ update ∈ db.cellUpdates, update.Of row → update.generation ≤ generation) :
    Retention known row (withApplied row.workspaceId row.id generation converged db) := by
  have marked : appliedTo row (withApplied row.workspaceId row.id generation converged db) = generation := by
    rw [appliedTo,(updateState_apply current converged row.workspaceId row.id).2.2,if_pos ⟨rfl,rfl⟩]
    exact Nat.max_eq_right applied
  constructor
  · intro c held
    exact retention.disjoint c ((retained_withApplied _ _ _ _ _ _ _ _).mp held).1
  · intro digest c past contained absent
    rw [retained_withApplied,marked]
    rcases retention.kept digest c past contained absent with held | ⟨deletion,member,own,deletes,done⟩
    · by_cases listed : ∃ plan ∈ pendingPlans row.workspaceId row.id
          (updateState row.workspaceId row.id db).appliedGeneration db, c ∈ plan.changes.deletedData
      · obtain ⟨plan,pending,gone⟩ := listed
        obtain ⟨deletion,member,home,there,waiting,rfl⟩ := mem_pendingPlans.mp pending
        have own : deletion.Of row := ⟨home,there⟩
        exact .inr ⟨deletion,member,own,(retention.pending deletion member own waiting c gone).2,bound deletion member own⟩
      · exact .inl ⟨held,fun also => listed also.2.2⟩
    · exact .inr ⟨deletion,member,own,deletes,Nat.le_trans done applied⟩
  · intro deletion member own waiting
    rw [marked] at waiting
    exact absurd (bound deletion member own) (Nat.not_le.mpr waiting)

variable [CoreFunctions] {statement : Statement} {db after : Db}

/-- Every instance keeps the data of its removed components, and nothing is kept of instances that are gone. -/
def Retains (known : PublishedRevision → Prop) (db : Db) : Prop :=
  (∀ row ∈ db.instances, Retention known row db) ∧
    ∀ kept ∈ db.retainedComponents, db.instances.has (kept.workspaceId,kept.instanceId)

omit [CoreFunctions] in
theorem Retains.congr (retains : Retains known db) (instances : after.instances = db.instances)
    (updates : after.cellUpdates = db.cellUpdates) (states : after.cellUpdateState = db.cellUpdateState)
    (retained : after.retainedComponents = db.retainedComponents) : Retains known after := by
  constructor
  · intro row live
    rw [instances] at live
    exact (retains.1 row live).congr updates states retained
  · rw [retained,instances]
    exact retains.2

theorem Retains.write (distinct : ∀ a b, known a → known b → a.digest = b.digest → a = b) (retains : Retains known db)
    (chained : ∃ log, Chained log db) (warranted : Warranted known statement) (write : Write statement db after) :
    Retains known after := by
  obtain ⟨log,chains,quiet⟩ := chained
  obtain ⟨live,held⟩ := retains
  cases write with
  | materialize new _ free =>
    have absent := Table.not_has.mpr free
    refine ⟨fun row member => ?_,fun kept member => ?_⟩
    · rcases Table.mem_insert.mp member with old | ⟨rfl,_⟩
      · exact (live row old).congr rfl rfl rfl
      · apply Retention.first
        · exact fun update => (quiet _ _ absent).1 update
        · rintro c ⟨kept,present,keyed⟩
          obtain ⟨home,named⟩ : kept.workspaceId = row.workspaceId ∧ kept.instanceId = row.id :=
            ⟨congrArg Prod.fst keyed,congrArg (Prod.fst ∘ Prod.snd) keyed⟩
          apply absent
          rw [← home,← named]
          exact held kept present
    · obtain ⟨row,present,keyed⟩ := held kept member
      exact ⟨row,Table.mem_insert_of_mem present,keyed⟩
  | newAction a operation cell db after admitted =>
    rw [admitted.result]
    exact Retains.congr ⟨live,held⟩ rfl rfl rfl rfl
  | acknowledge _ _ _ _ _ _ _ db after acknowledged =>
    rw [(recordUpdateReceipt_ok.mp acknowledged.result).2]
    exact Retains.congr ⟨live,held⟩ rfl rfl rfl rfl
  | accept workspace principal k plan revision now cell db after accepted =>
    obtain ⟨_,vetted,_,old,vettedOld,_,describes⟩ := warranted
    refine ⟨fun row member => ?_,fun kept member => ?_⟩
    · rcases accepted.mem_instances.mp member with ⟨present,other⟩ | rfl
      · apply (live row present).frame
        · intro update own
          rw [accepted.mem_cellUpdates]
          refine ⟨fun new => new.elim id ?_,.inl⟩
          rintro rfl
          exact absurd ⟨own.1.symm,own.2.symm⟩ other
        · rw [appliedTo,appliedTo,updateState_accept accepted,if_neg other]
        · intro c
          rw [accepted.retained_iff]
          exact or_iff_left fun same => other ⟨same.1,same.2.1⟩
      · obtain ⟨origin,_,chain⟩ := chains cell accepted.member
        apply (live cell accepted.member).accept distinct accepted describes vettedOld vetted
        intro update present own
        have bound := (chain.bounds present own.1 own.2).2
        rw [accepted.home,accepted.named,accepted.generation] at bound
        exact bound
    · have still : ∀ w i, db.instances.has (w,i) → after.instances.has (w,i) := by
        rintro w i ⟨row,present,keyed⟩
        by_cases here : row.workspaceId = workspace ∧ row.id = plan.target.instanceId
        · refine ⟨_,accepted.mem_instances.mpr (.inr rfl),?_⟩
          rw [← keyed]
          exact Prod.ext (accepted.home.trans here.1.symm) (accepted.named.trans here.2.symm)
        · exact ⟨row,accepted.mem_instances.mpr (.inl ⟨present,here⟩),keyed⟩
      rcases (accepted.retained_iff kept.workspaceId kept.instanceId kept.componentId).mp ⟨kept,member,rfl⟩ with
        ⟨old,present,keyed⟩ | ⟨home,named,_⟩
      · obtain ⟨home,named⟩ : old.workspaceId = kept.workspaceId ∧ old.instanceId = kept.instanceId :=
          ⟨congrArg Prod.fst keyed,congrArg (Prod.fst ∘ Prod.snd) keyed⟩
        apply still
        rw [← home,← named]
        exact held old present
      · apply still
        rw [home,named]
        exact ⟨cell,accepted.member,Prod.ext accepted.home accepted.named⟩
  | apply workspace id generation converged db current =>
    refine ⟨fun row member => ?_,fun kept member => held kept (Table.mem_delete.mp member).1⟩
    by_cases here : row.workspaceId = workspace ∧ row.id = id
    · obtain ⟨rfl,rfl⟩ := here
      obtain ⟨origin,_,chain⟩ := chains row member
      apply (live row member).apply current
      · exact Nat.le_trans chain.applied.2 (Nat.le_of_eq current)
      · intro update present own
        exact Nat.le_trans (chain.bounds present own.1 own.2).2 (Nat.le_of_eq current)
    · apply (live row member).frame
      · exact fun _ _ => Iff.rfl
      · rw [appliedTo,appliedTo,(updateState_apply current converged _ _).2.2,if_neg here]
      · intro c
        rw [retained_withApplied]
        exact and_iff_left fun same => here ⟨same.1,same.2.1⟩
  | beginClose workspace id db =>
    refine ⟨fun row member => ?_,held⟩
    apply (live row member).frame
    · exact fun _ _ => Iff.rfl
    · rw [appliedTo,appliedTo,updateState_close]
      split <;> rfl
    · exact fun _ => Iff.rfl
  | purge cell db current =>
    refine ⟨fun row member => ?_,fun kept member => ?_⟩
    · obtain ⟨present,other⟩ := (purged_instance current).mp member
      apply (live row present).frame
      · intro update own
        rw [mem_purged_cellUpdates,own.1,own.2]
        exact and_iff_left other
      · rw [appliedTo,appliedTo,updateState_purged,if_neg other]
      · intro c
        constructor
        · rintro ⟨kept,kept_,keyed⟩
          exact ⟨kept,(Table.mem_delete.mp kept_).1,keyed⟩
        · rintro ⟨kept,kept_,keyed⟩
          refine ⟨kept,Table.mem_delete.mpr ⟨kept_,fun same => other ?_⟩,keyed⟩
          obtain ⟨home,named⟩ : kept.workspaceId = row.workspaceId ∧ kept.instanceId = row.id :=
            ⟨congrArg Prod.fst keyed,congrArg (Prod.fst ∘ Prod.snd) keyed⟩
          exact ⟨home.symm.trans same.1,named.symm.trans same.2⟩
    · obtain ⟨before,other⟩ := Table.mem_delete.mp member
      obtain ⟨row,present,keyed⟩ := held kept before
      refine ⟨row,(purged_instance current).mpr ⟨present,fun same => other ?_⟩,keyed⟩
      obtain ⟨home,named⟩ : row.workspaceId = kept.workspaceId ∧ row.id = kept.instanceId :=
        ⟨congrArg Prod.fst keyed,congrArg Prod.snd keyed⟩
      exact ⟨home.symm.trans same.1,named.symm.trans same.2⟩
  | _ => exact Retains.congr ⟨live,held⟩ rfl rfl rfl rfl

theorem retains_run {config : Config} (reached : Reached config) (distinct : CollisionFree config.log) :
    Retains (Vetted config.log) config.state ∧
      Throughout (fun _ event => Retains (Vetted config.log) event.before ∧ Retains (Vetted config.log) event.after)
        config.log := by
  have chained := (chained_run reached).2.mono fun older event known => (⟨older,known.1⟩ : ∃ log, Chained log event.before)
  refine reached.always_of (fun db => ∃ log, Chained log db) chained (Retains (Vetted config.log)) ?_ ?_
  · constructor
    · exact fun row member => absurd member (Table.not_mem_empty row)
    · exact fun kept member => absurd member (Table.not_mem_empty kept)
  · intro statement db after chained warranted _ write retains
    exact retains.write (fun a b left right same => distinct a left.2 b right.2 same) chained warranted write

/-- A row of `cell_updates` that was not there before was accepted. -/
theorem new_update (write : Write statement db after) {update : UpdateRow} (member : update ∈ after.cellUpdates)
    (new : update ∉ db.cellUpdates) : ∃ workspace principal k plan revision now cell,
      statement = .acceptUpdate workspace principal k plan revision now ∧
      Accepted workspace principal k plan revision now cell db after ∧
      update = ⟨workspace,plan.target.instanceId,plan.target.expectedGeneration + 1,principal,k,plan,now⟩ := by
  cases write with
  | newAction a operation cell db after admitted =>
    rw [admitted.result] at member
    exact absurd member new
  | acknowledge _ _ _ _ _ _ _ db after acknowledged =>
    rw [(recordUpdateReceipt_ok.mp acknowledged.result).2] at member
    exact absurd member new
  | accept workspace principal k plan revision now cell db after accepted =>
    rcases accepted.mem_cellUpdates.mp member with old | rfl
    · exact absurd old new
    · exact ⟨workspace,principal,k,plan,revision,now,cell,rfl,accepted,rfl⟩
  | purge cell db => exact absurd (mem_purged_cellUpdates.mp member).1 new
  | _ => exact absurd member new

/-- The plan of every recorded update describes the edit from one vetted revision to another. -/
def Described (known : PublishedRevision → Prop) (db : Db) : Prop :=
  ∀ update ∈ db.cellUpdates, ∃ old new, known old ∧ known new ∧ update.plan.Describes old new

theorem Described.write (described : Described known db) (warranted : Warranted known statement)
    (write : Write statement db after) : Described known after := by
  intro update member
  by_cases before : update ∈ db.cellUpdates
  · exact described update before
  · obtain ⟨_,_,_,plan,revision,_,_,rfl,_,rfl⟩ := new_update write member before
    obtain ⟨_,vetted,_,old,vettedOld,_,describes⟩ := warranted
    exact ⟨old,revision,vettedOld,vetted,describes⟩

theorem described_run {config : Config} (reached : Reached config) : Described (Vetted config.log) config.state ∧
    Throughout (fun _ event => Described (Vetted config.log) event.before ∧ Described (Vetted config.log) event.after)
      config.log :=
  reached.always (Described (Vetted config.log)) (fun update member => absurd member (Table.not_mem_empty update))
    fun _ _ _ warranted _ write described => described.write warranted write

/-- A new row of `cell_updates` adds nothing whose data is retained: what an
    earlier update removed was deleted by a later one, which has been applied. -/
def ReadmitsDeleted (event : Event) : Prop :=
  ∀ update ∈ event.after.cellUpdates, update ∉ event.before.cellUpdates → ∃ row ∈ event.before.instances, update.Of row ∧
    ∀ c ∈ update.plan.changes.added, ¬ event.before.retainedComponents.has (row.workspaceId,row.id,c) ∧
      ∀ removal ∈ event.before.cellUpdates, removal.Of row → c ∈ removal.plan.changes.removed →
        ∃ deletion ∈ event.before.cellUpdates, deletion.Of row ∧ c ∈ deletion.plan.changes.deletedData ∧
          removal.generation ≤ deletion.generation ∧ deletion.generation ≤ appliedTo row event.before

theorem readmitsDeleted_run {config : Config} (reached : Reached config) (distinct : CollisionFree config.log) :
    Throughout (fun _ event => ReadmitsDeleted event) config.log := by
  have unique : ∀ a b, Vetted config.log a → Vetted config.log b → a.digest = b.digest → a = b :=
    fun a b left right same => distinct a left.2 b right.2 same
  have facts := ((reached.warranted _ reached.vetted).2.and (retains_run reached distinct).2).and
    ((described_run reached).2.and reached.committed)
  refine facts.mono ?_
  rintro older event ⟨⟨⟨_,warranted⟩,⟨retains,_⟩,_⟩,⟨described,_⟩,committed⟩ update member new
  cases did : event.did with
  | none =>
    rw [Interleaving.Committed,did] at committed
    rw [committed] at member
    exact absurd member new
  | some statement =>
    obtain ⟨fits,_,write⟩ := warranted statement did
    obtain ⟨_,_,_,plan,revision,_,cell,rfl,accepted,rfl⟩ := new_update write member new
    obtain ⟨_,vetted,_,old,vettedOld,_,describes⟩ := fits
    refine ⟨cell,accepted.member,⟨accepted.home.symm,accepted.named.symm⟩,fun c added => ?_⟩
    have free : ¬ event.before.retainedComponents.has (cell.workspaceId,cell.id,c) := by
      rw [accepted.home,accepted.named]
      exact accepted.fresh c added
    refine ⟨free,fun removal removes own gone => ?_⟩
    have absent : ¬ Contains (Vetted config.log) cell.revisionDigest c := by
      rw [accepted.base,describes.base,contains_iff unique vettedOld]
      exact ((describes.added c).mp added).2
    obtain ⟨from_,_,vettedFrom,_,edits⟩ := described removal removes
    have contained : Contains (Vetted config.log) removal.plan.baseRevision c := by
      rw [edits.base,contains_iff unique vettedFrom]
      exact ((edits.removed c).mp gone).1
    rcases (retains cell accepted.member).kept _ c (.inr ⟨removal,removes,own,.inl rfl⟩) contained absent with
      held | ⟨deletion,deletes,also,⟨listed,last⟩,done⟩
    · exact absurd held free
    · exact ⟨deletion,deletes,also,listed,last removal removes own gone,done⟩

/-- What is retained of an instance is none of its components, and a component of
    an earlier revision is retained unless an update deleted it, at or after its
    last removal, and was applied. No update adds a component again before that. -/
theorem retained_data {config : Config} (reached : Reached config) (distinct : CollisionFree config.log) :
    (∀ row ∈ config.state.instances,
      (∀ c, config.state.retainedComponents.has (row.workspaceId,row.id,c) →
        ¬ Contains (Vetted config.log) row.revisionDigest c) ∧
      ∀ digest, ((∃ origin, materialized row.workspaceId row.id config.log = some origin ∧ digest = origin.revisionDigest) ∨
          ∃ update ∈ config.state.cellUpdates, update.Of row ∧ digest = update.plan.targetRevision) →
        ∀ c, Contains (Vetted config.log) digest c → ¬ Contains (Vetted config.log) row.revisionDigest c →
          config.state.retainedComponents.has (row.workspaceId,row.id,c) ∨
            ∃ deletion ∈ config.state.cellUpdates, deletion.Of row ∧ Deletes row deletion c config.state ∧
              deletion.generation ≤ appliedTo row config.state) ∧
      Throughout (fun _ event => ReadmitsDeleted event) config.log := by
  refine ⟨fun row live => ?_,readmitsDeleted_run reached distinct⟩
  have retention := (retains_run reached distinct).1.1 row live
  refine ⟨retention.disjoint,fun digest past c => retention.kept digest c ?_⟩
  rcases past with ⟨origin,born,rfl⟩ | ⟨update,member,own,rfl⟩
  · obtain ⟨known,same,chain⟩ := (chained_run reached).1.1 row live
    rw [born] at same
    cases same
    rcases chain.current with ⟨_,unchanged,_⟩ | ⟨last,member,there,here,_⟩
    · exact .inl unchanged.symm
    · -- The first of the updates led from the revision of the materialized row.
      have bounds := chain.bounds member there here
      obtain ⟨first,firstIn,firstThere,firstHere,second⟩ :=
        mem_generationsOf.mp ((chain.mem_generations 2).mpr ⟨Nat.le_refl _,by omega⟩)
      exact .inr ⟨first,firstIn,⟨firstThere,firstHere⟩,.inl (chain.first first firstIn firstThere firstHere second).symm⟩
  · exact .inr ⟨update,member,own,.inr rfl⟩
end

section
attribute [local instance] CoreFunctions.sample

/-- `bob` is removed, its data deleted and applied, `bob` added again, and `alice` removed. -/
def readmitted : Config :=
  ran (inTurn (prepared [("both",["alice","bob"]),("alice",["alice"]),("bob",["bob"])] ++
    [sampleInstance "cell-1" "n" "k1" ["alice","bob"]] ++
    sampleEdit "p" "n" "k2" ⟨"cell-1",1,false,[]⟩ ["alice","bob"] ["alice"] ++
    sampleEdit "p" "n" "k3" ⟨"cell-1",2,false,["bob"]⟩ ["alice"] ["alice"] ++
    [.markUpdateApplied "w" "cell-1" 3 none] ++
    sampleEdit "p" "n" "k4" ⟨"cell-1",3,false,[]⟩ ["alice"] ["alice","bob"] ++
    sampleEdit "p" "n" "k5" ⟨"cell-1",4,false,[]⟩ ["alice","bob"] ["bob"]))

set_option maxRecDepth 100000 in
theorem retained_data_readmitted : CollisionFree readmitted.log ∧
    generationsOf "w" "cell-1" readmitted.state = [2,3,4,5] ∧
    readmitted.state.retainedComponents.rows.map RetainedRow.componentId = ["alice"] ∧
    ∃ row ∈ readmitted.state.instances, ∀ c, readmitted.state.retainedComponents.has (row.workspaceId,row.id,c) →
      ¬ Contains (Vetted readmitted.log) row.revisionDigest c := by
  have seen : CollisionFree readmitted.log ∧ generationsOf "w" "cell-1" readmitted.state = [2,3,4,5] ∧
      readmitted.state.retainedComponents.rows.map RetainedRow.componentId = ["alice"] ∧
      readmitted.state.instances.has ("w","cell-1") := by decide +kernel
  obtain ⟨distinct,generations,retained,row,live,_⟩ := seen
  have reached : Reached readmitted := ran_reached _
  exact ⟨distinct,generations,retained,row,live,((retained_data reached distinct).1 row live).1⟩
end

end Proofstorm.Store
