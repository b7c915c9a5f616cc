import Proofstorm.Store.History

/-!
The generations of an instance. Each accepted update adds one generation, whose
plan starts from the revision before it; `update_chain` says that no gap, repeat
or detour ever appears between the revision an instance was materialized with
and the one it has.
-/
namespace Proofstorm.Store
open Proofstorm.Core
open Proofstorm.Interleaving (Throughout)

section

/-- The row with which the instance under an id last came to be. -/
def materialized (workspace id : String) : List Event → Option InstanceRow
  | [] => none
  | event :: older =>
    if ¬ event.before.instances.has (workspace,id) ∧ event.after.instances.has (workspace,id) then
      event.after.instances.find (workspace,id)
    else materialized workspace id older

/-- The generations recorded in `cell_updates` for an instance. -/
def generationsOf (workspace id : String) (db : Db) : List Nat :=
  (db.cellUpdates.rows.filter fun row => row.workspaceId = workspace ∧ row.instanceId = id).map UpdateRow.generation

/-- The updates of an instance lead from the row `origin` to `row`, one generation after the other. -/
structure UpdateChain (origin row : InstanceRow) (db : Db) : Prop where
  generations : (generationsOf row.workspaceId row.id db).Perm
    (List.range' 2 ((updateState row.workspaceId row.id db).generation - 1))
  first : ∀ update ∈ db.cellUpdates, update.workspaceId = row.workspaceId → update.instanceId = row.id →
    update.generation = 2 → update.plan.baseRevision = origin.revisionDigest
  next : ∀ a ∈ db.cellUpdates, ∀ b ∈ db.cellUpdates, a.workspaceId = row.workspaceId → a.instanceId = row.id →
    b.workspaceId = row.workspaceId → b.instanceId = row.id → b.generation = a.generation + 1 →
      b.plan.baseRevision = a.plan.targetRevision
  current : ((updateState row.workspaceId row.id db).generation = 1 ∧ row.revisionDigest = origin.revisionDigest ∧
      row.lockDigest = origin.lockDigest) ∨
    ∃ last ∈ db.cellUpdates, last.workspaceId = row.workspaceId ∧ last.instanceId = row.id ∧
      last.generation = (updateState row.workspaceId row.id db).generation ∧
      row.revisionDigest = last.plan.targetRevision ∧ row.lockDigest = last.plan.targetLock
  applied : 1 ≤ (updateState row.workspaceId row.id db).appliedGeneration ∧
    (updateState row.workspaceId row.id db).appliedGeneration ≤ (updateState row.workspaceId row.id db).generation

/-- An id without an instance has no updates and is in its first generation. -/
def Quiet (workspace id : String) (db : Db) : Prop :=
  (∀ update ∈ db.cellUpdates, ¬ (update.workspaceId = workspace ∧ update.instanceId = id)) ∧
    (updateState workspace id db).generation = 1 ∧ (updateState workspace id db).appliedGeneration = 1

variable {db : Db} {origin : InstanceRow}

theorem mem_generationsOf {workspace id : String} {n : Nat} :
    n ∈ generationsOf workspace id db ↔ ∃ update ∈ db.cellUpdates, update.workspaceId = workspace ∧
      update.instanceId = id ∧ update.generation = n := by
  simp [generationsOf,Table.mem_rows,and_assoc]

theorem generationsOf_nodup (workspace id : String) (db : Db) : (generationsOf workspace id db).Nodup := by
  refine List.Nodup.map_on ?_ ((List.Nodup.of_map _ db.cellUpdates.unique).filter _)
  intro a inA b inB same
  simp only [List.mem_filter,decide_eq_true_eq,Table.mem_rows] at inA inB
  obtain ⟨memberA,homeA,hereA⟩ := inA
  obtain ⟨memberB,homeB,hereB⟩ := inB
  exact Table.eq_of_key memberA memberB (Prod.ext (homeA.trans homeB.symm) (Prod.ext (hereA.trans hereB.symm) same))

/-- Generations that are `2..=last`, each once. -/
theorem generationsOf_perm {workspace id : String} {last : Nat}
    (each : ∀ n, n ∈ generationsOf workspace id db ↔ 2 ≤ n ∧ n ≤ last) :
    (generationsOf workspace id db).Perm (List.range' 2 (last - 1)) := by
  refine (List.perm_ext_iff_of_nodup (generationsOf_nodup workspace id db) List.nodup_range').mpr fun n => ?_
  rw [each,List.mem_range'_1]
  omega

theorem UpdateChain.mem_generations {row : InstanceRow} (chain : UpdateChain origin row db) (n : Nat) :
    n ∈ generationsOf row.workspaceId row.id db ↔
      2 ≤ n ∧ n ≤ (updateState row.workspaceId row.id db).generation := by
  rw [chain.generations.mem_iff,List.mem_range'_1]
  have := chain.applied
  omega

theorem UpdateChain.bounds {row : InstanceRow} (chain : UpdateChain origin row db) {update : UpdateRow}
    (member : update ∈ db.cellUpdates) (there : update.workspaceId = row.workspaceId) (here : update.instanceId = row.id) :
    2 ≤ update.generation ∧ update.generation ≤ (updateState row.workspaceId row.id db).generation :=
  (chain.mem_generations _).mp (mem_generationsOf.mpr ⟨update,member,there,here,rfl⟩)

/-- A chain depends on the updates and the update state of its own instance only. -/
theorem UpdateChain.frame {old row : InstanceRow} {after : Db} (chain : UpdateChain origin old db)
    (same : row.workspaceId = old.workspaceId ∧ row.id = old.id ∧ row.revisionDigest = old.revisionDigest ∧
      row.lockDigest = old.lockDigest)
    (updates : ∀ update, update.workspaceId = old.workspaceId → update.instanceId = old.id →
      (update ∈ after.cellUpdates ↔ update ∈ db.cellUpdates))
    (generation : (updateState old.workspaceId old.id after).generation = (updateState old.workspaceId old.id db).generation)
    (applied : 1 ≤ (updateState old.workspaceId old.id after).appliedGeneration ∧
      (updateState old.workspaceId old.id after).appliedGeneration ≤ (updateState old.workspaceId old.id db).generation) :
    UpdateChain origin row after := by
  obtain ⟨home,named,revision,lock⟩ := same
  constructor
  · rw [home,named]
    refine generationsOf_perm fun n => ?_
    rw [generation,← chain.mem_generations n,mem_generationsOf,mem_generationsOf]
    constructor
    · rintro ⟨update,member,there,here,number⟩
      exact ⟨update,(updates update there here).mp member,there,here,number⟩
    · rintro ⟨update,member,there,here,number⟩
      exact ⟨update,(updates update there here).mpr member,there,here,number⟩
  · rw [home,named]
    exact fun update member there here => chain.first update ((updates update there here).mp member) there here
  · rw [home,named]
    exact fun a inA b inB homeA hereA homeB hereB => chain.next a ((updates a homeA hereA).mp inA) b
      ((updates b homeB hereB).mp inB) homeA hereA homeB hereB
  · rw [home,named,revision,lock,generation]
    rcases chain.current with unchanged | ⟨last,member,there,here,rest⟩
    · exact .inl unchanged
    · exact .inr ⟨last,(updates last there here).mpr member,there,here,rest⟩
  · rw [home,named,generation]
    exact applied

theorem UpdateChain.congr {row : InstanceRow} {after : Db} (chain : UpdateChain origin row db)
    (updates : after.cellUpdates = db.cellUpdates) (states : after.cellUpdateState = db.cellUpdateState) :
    UpdateChain origin row after := by
  have state := updateState_congr states row.workspaceId row.id
  exact chain.frame ⟨rfl,rfl,rfl,rfl⟩ (fun _ _ _ => by rw [updates]) (by rw [state]) (state ▸ chain.applied)

theorem Quiet.congr {workspace id : String} {after : Db} (quiet : Quiet workspace id db)
    (updates : after.cellUpdates = db.cellUpdates) (states : after.cellUpdateState = db.cellUpdateState) :
    Quiet workspace id after := by
  rw [Quiet,updates,updateState_congr states]
  exact quiet

/-- A new instance of a quiet id starts a chain. -/
theorem Quiet.chain {row : InstanceRow} (quiet : Quiet row.workspaceId row.id db) : UpdateChain row row db := by
  obtain ⟨none,generation,applied⟩ := quiet
  constructor
  · rw [generation]
    refine generationsOf_perm fun n => ?_
    rw [mem_generationsOf]
    constructor
    · rintro ⟨update,member,there,here,_⟩
      exact absurd ⟨there,here⟩ (none update member)
    · omega
  · exact fun update member there here => absurd ⟨there,here⟩ (none update member)
  · exact fun a member _ _ there here => absurd ⟨there,here⟩ (none a member)
  · exact .inl ⟨generation,rfl,rfl⟩
  · omega

/-- An accepted update extends the chain of its instance by one generation. -/
theorem UpdateChain.accept [CoreFunctions] {workspace principal k : String} {plan : CellUpdatePlan}
    {old revision : PublishedRevision} {now : Int} {origin cell : InstanceRow} {db after : Db}
    (accepted : Accepted workspace principal k plan revision now cell db after) (describes : plan.Describes old revision)
    (chain : UpdateChain origin cell db) :
    UpdateChain origin { cell with revisionDigest := revision.digest, lockDigest := revision.lock.digest } after := by
  have home := accepted.home
  have named := accepted.named
  have generation := accepted.generation
  rw [← home,← named] at generation
  have state : updateState cell.workspaceId cell.id after =
      { updateState cell.workspaceId cell.id db with generation := plan.target.expectedGeneration + 1 } := by
    rw [updateState_accept accepted,if_pos ⟨home,named⟩]
  have member := @Accepted.mem_cellUpdates _ _ _ _ _ _ _ _ _ _ accepted
  have bounds := chain.mem_generations
  have applied := chain.applied
  -- No update of the instance has the new generation or a later one.
  have earlier : ∀ update ∈ db.cellUpdates, update.workspaceId = cell.workspaceId → update.instanceId = cell.id →
      2 ≤ update.generation ∧ update.generation ≤ plan.target.expectedGeneration :=
    fun update present there here => generation ▸ chain.bounds present there here
  rw [generation] at bounds applied
  constructor
  · refine generationsOf_perm fun n => ?_
    simp only [state,mem_generationsOf,member]
    constructor
    · rintro ⟨update,present | rfl,there,here,rfl⟩
      · have := earlier update present there here
        omega
      · exact ⟨show 2 ≤ plan.target.expectedGeneration + 1 by omega,Nat.le_refl _⟩
    · intro range
      rcases Nat.lt_or_ge plan.target.expectedGeneration n with new | old
      · have last : n = plan.target.expectedGeneration + 1 := by omega
        exact ⟨_,.inr rfl,home.symm,named.symm,last.symm⟩
      · obtain ⟨update,present,rest⟩ := mem_generationsOf.mp ((bounds n).mpr ⟨range.1,old⟩)
        exact ⟨update,.inl present,rest⟩
  · intro update present there here second
    rcases member.mp present with before | rfl
    · exact chain.first update before there here second
    · -- The first update of the instance starts from the revision it has.
      have initial : plan.target.expectedGeneration = 1 := by simpa using second
      rw [← accepted.base]
      rcases chain.current with ⟨_,unchanged,_⟩ | ⟨last,lastIn,lastThere,lastHere,number,_⟩
      · exact unchanged
      · have := earlier last lastIn lastThere lastHere
        omega
  · intro a inA b inB homeA hereA homeB hereB follows
    rcases member.mp inA with beforeA | rfl <;> rcases member.mp inB with beforeB | rfl
    · exact chain.next a beforeA b beforeB homeA hereA homeB hereB follows
    · -- The new update starts from the target of the last one.
      have last : a.generation = plan.target.expectedGeneration := by
        have : plan.target.expectedGeneration + 1 = a.generation + 1 := follows
        omega
      rw [← accepted.base]
      rcases chain.current with ⟨one,_⟩ | ⟨final,finalIn,finalThere,finalHere,number,target,_⟩
      · have := earlier a beforeA homeA hereA
        omega
      · rw [target,Table.eq_of_key finalIn beforeA (Prod.ext (finalThere.trans homeA.symm)
          (Prod.ext (finalHere.trans hereA.symm) (number.trans (generation.trans last.symm))))]
    · have := earlier b beforeB homeB hereB
      have : b.generation = plan.target.expectedGeneration + 1 + 1 := follows
      omega
    · have : plan.target.expectedGeneration + 1 = plan.target.expectedGeneration + 1 + 1 := follows
      omega
  · refine .inr ⟨_,member.mpr (.inr rfl),home.symm,named.symm,?_,describes.target.symm,describes.lock.symm⟩
    rw [state]
  · rw [state]
    exact ⟨applied.1,Nat.le_succ_of_le applied.2⟩

/-! ### The invariant -/

variable [CoreFunctions] {known : PublishedRevision → Prop} {statement : Statement} {db after : Db}

variable {cell : CellInstance} {event : Event} {older : List Event} {config : Config}

theorem mem_purged_cellUpdates {update : UpdateRow} : update ∈ (purged cell db).cellUpdates ↔
    update ∈ db.cellUpdates ∧ ¬ (update.workspaceId = cell.workspaceId ∧ update.instanceId = cell.id) :=
  Table.mem_delete

theorem mem_purged_instances {row : InstanceRow} : row ∈ (purged cell db).instances ↔
    row ∈ db.instances ∧
      ¬ (row.workspaceId = cell.workspaceId ∧ row.id = cell.id ∧ row.instanceKey = cell.instanceKey) :=
  Table.mem_delete

/-- The instance that a purge takes away is the one of its id. -/
theorem purged_instance (current : ∃ row ∈ db.instances, row.workspaceId = cell.workspaceId ∧
    row.id = cell.id ∧ row.instanceKey = cell.instanceKey) {row : InstanceRow} :
    row ∈ (purged cell db).instances ↔ row ∈ db.instances ∧ ¬ (row.workspaceId = cell.workspaceId ∧ row.id = cell.id) := by
  obtain ⟨held,member,home,named,incarnation⟩ := current
  rw [mem_purged_instances]
  refine and_congr_right fun present => not_congr ⟨fun same => ⟨same.1,same.2.1⟩,fun ⟨there,same⟩ => ⟨there,same,?_⟩⟩
  rw [Table.eq_of_key present member (Prod.ext (there.trans home.symm) (same.trans named.symm)),incarnation]

/-- A write extends the chain of every instance that was there, and starts one for a new instance. -/
theorem chain_write (warranted : Warranted known statement) (write : Write statement db after)
    (dead : ∀ workspace id, ¬ db.instances.has (workspace,id) → Quiet workspace id db) {row : InstanceRow}
    (live : row ∈ after.instances) :
    (∃ old ∈ db.instances, (old.workspaceId = row.workspaceId ∧ old.id = row.id) ∧
        ∀ origin, UpdateChain origin old db → UpdateChain origin row after) ∨
      (¬ db.instances.has (row.workspaceId,row.id) ∧ UpdateChain row row after) := by
  cases write with
  | materialize new _ free =>
    rcases Table.mem_insert.mp live with old | ⟨rfl,_⟩
    · exact .inl ⟨row,old,⟨rfl,rfl⟩,fun _ chain => chain.congr rfl rfl⟩
    · have absent := Table.not_has.mpr free
      exact .inr ⟨absent,(dead _ _ absent).chain.congr rfl rfl⟩
  | newAction a operation cell db after admitted =>
    rw [admitted.result] at live ⊢
    exact .inl ⟨row,live,⟨rfl,rfl⟩,fun _ chain => chain.congr rfl rfl⟩
  | acknowledge workspace principal k plan revision now cell db after acknowledged =>
    rw [(recordUpdateReceipt_ok.mp acknowledged.result).2] at live ⊢
    exact .inl ⟨row,live,⟨rfl,rfl⟩,fun _ chain => chain.congr rfl rfl⟩
  | accept workspace principal k plan revision now cell db after accepted =>
    obtain ⟨_,_,_,old,_,_,describes⟩ := warranted
    rcases accepted.mem_instances.mp live with ⟨present,other⟩ | rfl
    · refine .inl ⟨row,present,⟨rfl,rfl⟩,fun origin chain => ?_⟩
      have state : updateState row.workspaceId row.id after = updateState row.workspaceId row.id db := by
        rw [updateState_accept accepted,if_neg other]
      refine chain.frame ⟨rfl,rfl,rfl,rfl⟩ (fun update there here => ?_) (by rw [state]) (state ▸ chain.applied)
      rw [accepted.mem_cellUpdates]
      refine ⟨fun member => member.elim id ?_,.inl⟩
      rintro rfl
      exact absurd ⟨there.symm,here.symm⟩ other
    · exact .inl ⟨cell,accepted.member,⟨rfl,rfl⟩,fun _ chain => chain.accept accepted describes⟩
  | apply workspace id generation converged db current =>
    refine .inl ⟨row,live,⟨rfl,rfl⟩,fun _ chain => ?_⟩
    obtain ⟨same,_,applied⟩ := updateState_apply current converged row.workspaceId row.id
    refine chain.frame ⟨rfl,rfl,rfl,rfl⟩ (fun _ _ _ => Iff.rfl) same ?_
    have bounds := chain.applied
    rw [applied]
    split
    · rename_i here
      obtain ⟨rfl,rfl⟩ := here
      omega
    · exact bounds
  | beginClose workspace id db =>
    refine .inl ⟨row,live,⟨rfl,rfl⟩,fun _ chain => ?_⟩
    have closed := updateState_close workspace id db row.workspaceId row.id
    refine chain.frame ⟨rfl,rfl,rfl,rfl⟩ (fun _ _ _ => Iff.rfl) ?_ ?_
    · rw [closed]
      split <;> rfl
    · rw [closed]
      split <;> exact chain.applied
  | purge cell db current =>
    obtain ⟨present,other⟩ := (purged_instance current).mp live
    refine .inl ⟨row,present,⟨rfl,rfl⟩,fun _ chain => ?_⟩
    have state := updateState_purged cell db row.workspaceId row.id
    rw [if_neg other] at state
    refine chain.frame ⟨rfl,rfl,rfl,rfl⟩ (fun update there here => ?_) (by rw [state]) (state ▸ chain.applied)
    rw [mem_purged_cellUpdates,there,here]
    exact and_iff_left other
  | _ => exact .inl ⟨row,live,⟨rfl,rfl⟩,fun _ chain => chain.congr rfl rfl⟩

/-- An id without an instance stays quiet, and a purge leaves its id quiet. -/
theorem quiet_write (write : Write statement db after)
    (dead : ∀ workspace id, ¬ db.instances.has (workspace,id) → Quiet workspace id db) (workspace id : String)
    (absent : ¬ after.instances.has (workspace,id)) : Quiet workspace id after := by
  cases write with
  | materialize new _ free =>
    exact (dead _ _ fun ⟨row,member,same⟩ => absent ⟨row,Table.mem_insert_of_mem member,same⟩).congr rfl rfl
  | newAction a operation cell db after admitted =>
    rw [admitted.result] at absent ⊢
    exact (dead _ _ absent).congr rfl rfl
  | acknowledge _ _ _ _ _ _ _ db after acknowledged =>
    rw [(recordUpdateReceipt_ok.mp acknowledged.result).2] at absent ⊢
    exact (dead _ _ absent).congr rfl rfl
  | accept w principal k plan revision now cell db after accepted =>
    have other : ¬ (workspace = w ∧ id = plan.target.instanceId) := by
      rintro ⟨rfl,rfl⟩
      exact absent ⟨_,accepted.mem_instances.mpr (.inr rfl),Prod.ext accepted.home accepted.named⟩
    have before : ¬ db.instances.has (workspace,id) := by
      rintro ⟨row,member,same⟩
      have home : row.workspaceId = workspace := congrArg Prod.fst same
      have named : row.id = id := congrArg Prod.snd same
      exact absent ⟨row,accepted.mem_instances.mpr (.inl ⟨member,by rw [home,named]; exact other⟩),same⟩
    obtain ⟨none,state⟩ := dead _ _ before
    refine ⟨fun update member => ?_,by rw [updateState_accept accepted,if_neg other]; exact state⟩
    rcases accepted.mem_cellUpdates.mp member with old | rfl
    · exact none update old
    · exact fun same => other ⟨same.1.symm,same.2.symm⟩
  | apply w i generation converged db current =>
    obtain ⟨none,first,applied⟩ := dead _ _ absent
    obtain ⟨same,_,marked⟩ := updateState_apply current converged workspace id
    refine ⟨none,same.trans first,?_⟩
    rw [marked]
    split
    · rename_i here
      obtain ⟨rfl,rfl⟩ := here
      omega
    · exact applied
  | beginClose w i db =>
    obtain ⟨none,state⟩ := dead _ _ absent
    have closed := updateState_close w i db workspace id
    refine ⟨none,?_⟩
    rw [closed]
    split <;> exact state
  | purge cell db current =>
    have state := updateState_purged cell db workspace id
    by_cases here : workspace = cell.workspaceId ∧ id = cell.id
    · obtain ⟨rfl,rfl⟩ := here
      rw [if_pos ⟨rfl,rfl⟩] at state
      exact ⟨fun update member => (mem_purged_cellUpdates.mp member).2,by rw [state],by rw [state]⟩
    · rw [if_neg here] at state
      have before : ¬ db.instances.has (workspace,id) := by
        rintro ⟨row,member,same⟩
        have home : row.workspaceId = workspace := congrArg Prod.fst same
        have named : row.id = id := congrArg Prod.snd same
        exact absent ⟨row,(purged_instance current).mpr ⟨member,by rw [home,named]; exact here⟩,same⟩
      obtain ⟨none,quiet⟩ := dead _ _ before
      exact ⟨fun update member => none update (mem_purged_cellUpdates.mp member).1,by rw [state]; exact quiet⟩
  | _ => exact (dead _ _ absent).congr rfl rfl

/-! ### Every run -/

omit [CoreFunctions] in
theorem materialized_kept {workspace id : String}
    (there : event.before.instances.has (workspace,id)) :
    materialized workspace id (event :: older) = materialized workspace id older := by
  rw [materialized,if_neg fun new => new.1 there]

omit [CoreFunctions] in
theorem materialized_new {row : InstanceRow}
    (absent : ¬ event.before.instances.has (row.workspaceId,row.id)) (live : row ∈ event.after.instances) :
    materialized row.workspaceId row.id (event :: older) = some row := by
  rw [materialized,if_pos ⟨absent,row,live,rfl⟩]
  exact Table.find_of_mem live

/-- Every instance continues the chain from the row with which it came to be, and
    every other id is quiet. -/
def Chained (log : List Event) (db : Db) : Prop :=
  (∀ row ∈ db.instances, ∃ origin, materialized row.workspaceId row.id log = some origin ∧ UpdateChain origin row db) ∧
    ∀ workspace id, ¬ db.instances.has (workspace,id) → Quiet workspace id db

theorem chained_run (reached : Reached config) : Chained config.log config.state ∧
    Throughout (fun older event => Chained older event.before ∧ Chained (event :: older) event.after) config.log := by
  have first : Chained [] Db.empty := by
    refine ⟨fun row member => absurd member (Table.not_mem_empty row),fun workspace id _ => ⟨?_,rfl,rfl⟩⟩
    exact fun update member => absurd member (Table.not_mem_empty update)
  refine reached.induction Chained first ?_ ?_
  · intro older event _ same before
    rw [same]
    refine ⟨fun row live => ?_,before.2⟩
    obtain ⟨origin,born,chain⟩ := before.1 row live
    exact ⟨origin,(materialized_kept ⟨row,live,rfl⟩).trans born,chain⟩
  · intro older event statement _ warranted _ write before
    refine ⟨fun row live => ?_,fun workspace id => quiet_write write before.2 workspace id⟩
    rcases chain_write warranted write before.2 live with ⟨old,member,⟨home,named⟩,extends_⟩ | ⟨absent,chain⟩
    · obtain ⟨origin,born,chain⟩ := before.1 old member
      rw [home,named] at born
      exact ⟨origin,(materialized_kept ⟨old,member,Prod.ext home named⟩).trans born,extends_ origin chain⟩
    · exact ⟨row,materialized_new absent live,chain⟩

/-- Every instance has a revision of the store, with the lock that its row names. -/
def Anchored (known : PublishedRevision → Prop) (db : Db) : Prop :=
  ∀ row ∈ db.instances, db.revisions.has row.revisionDigest ∧ ∃ revision, known revision ∧
    revision.digest = row.revisionDigest ∧ revision.workspaceId = row.workspaceId ∧ revision.lock.digest = row.lockDigest

theorem Anchored.write (anchored : Anchored known db) (warranted : Warranted known statement)
    (write : Write statement db after) : Anchored known after := by
  cases write with
  | publish row db f keeps contents =>
    intro cell live
    obtain ⟨⟨old,member,same⟩,revision⟩ := anchored cell live
    refine ⟨?_,revision⟩
    by_cases here : key old = key row
    · exact ⟨f old,(Table.mem_upsert keeps).mpr (.inr (.inl ⟨old,member,here,rfl⟩)),(keeps old).trans same⟩
    · exact ⟨old,(Table.mem_upsert keeps).mpr (.inl ⟨member,here⟩),same⟩
  | materialize new _ free unique published =>
    intro row live
    rcases Table.mem_insert.mp live with old | ⟨rfl,_⟩
    · exact anchored row old
    · obtain ⟨revision,vetted,digest,home,lock⟩ := warranted
      exact ⟨published,revision,vetted,digest,home,lock⟩
  | newAction a operation cell db after admitted =>
    rw [admitted.result]
    exact anchored
  | acknowledge _ _ _ _ _ _ _ db after acknowledged =>
    rw [(recordUpdateReceipt_ok.mp acknowledged.result).2]
    exact anchored
  | accept workspace principal k plan revision now cell db after accepted =>
    obtain ⟨_,vetted,home,_⟩ := warranted
    have kept : after.revisions = db.revisions := by
      rw [accepted.after_eq]
      rfl
    intro row live
    rw [kept]
    rcases accepted.mem_instances.mp live with ⟨old,_⟩ | rfl
    · exact anchored row old
    · exact ⟨accepted.published,revision,vetted,rfl,home.trans accepted.home.symm,rfl⟩
  | purgeHandle workspace id db drafts absent =>
    intro row live
    obtain ⟨⟨old,member,same⟩,revision⟩ := anchored row live
    refine ⟨⟨old,Table.mem_delete.mpr ⟨member,fun gone => ?_⟩,same⟩,revision⟩
    exact gone.2.2 row live same.symm
  | purge cell db current =>
    intro row live
    obtain ⟨⟨old,member,same⟩,revision⟩ := anchored row (mem_purged_instances.mp live).1
    refine ⟨⟨old,Table.mem_delete.mpr ⟨member,fun gone => ?_⟩,same⟩,revision⟩
    -- The row is still there without the cell, so its revision is referenced.
    exact gone.2.2 (.inl ⟨row,live,same.symm⟩)
  | _ => exact anchored

theorem anchored_run (reached : Reached config) :
    Anchored (Vetted config.log) config.state ∧
      Throughout (fun _ event => Anchored (Vetted config.log) event.before ∧ Anchored (Vetted config.log) event.after)
        config.log :=
  reached.always (Anchored (Vetted config.log)) (fun row member => absurd member (Table.not_mem_empty row))
    fun _ _ _ warranted _ write anchored => anchored.write warranted write

/-- The generations of every live instance are `2..=generation`, each starting
    from the revision before it; the row has the revision of the last of them and
    the lock of that revision. -/
theorem update_chain {config : Config} (reached : Reached config) {row : InstanceRow} (live : row ∈ config.state.instances) :
    (∃ origin, materialized row.workspaceId row.id config.log = some origin ∧ UpdateChain origin row config.state) ∧
      config.state.revisions.has row.revisionDigest ∧
      (∃ revision, Vetted config.log revision ∧ revision.digest = row.revisionDigest ∧
        revision.workspaceId = row.workspaceId ∧ revision.lock.digest = row.lockDigest) ∧
      (CollisionFree config.log → ∀ stored ∈ config.state.revisions, stored.digest = row.revisionDigest →
        stored.revision.lock.digest = row.lockDigest) := by
  obtain ⟨vouched,_⟩ := reached.warranted _ reached.vetted
  obtain ⟨anchored,_⟩ := anchored_run reached
  obtain ⟨stored,revision,vetted,digest,home,lock⟩ := anchored row live
  refine ⟨(chained_run reached).1.1 row live,stored,⟨revision,vetted,digest,home,lock⟩,?_⟩
  intro distinct other member same
  obtain ⟨agrees,_,published⟩ := vouched other member
  rw [distinct other.revision published.2 revision vetted.2 (agrees.trans (same.trans digest.symm)),lock]
end

section
attribute [local instance] CoreFunctions.sample

/-- Two updates by different principals, the first of them applied. -/
def updatedTwice : Config :=
  ran (inTurn (prepared [("one",["alice","bob"]),("two",["alice"]),("three",["alice","carol"])] ++
    [sampleInstance "cell-1" "n" "k1" ["alice","bob"]] ++
    sampleEdit "p" "n" "k2" ⟨"cell-1",1,false,[]⟩ ["alice","bob"] ["alice"] ++
    [.markUpdateApplied "w" "cell-1" 2 none] ++
    sampleEdit "q" "n" "k3" ⟨"cell-1",2,false,[]⟩ ["alice"] ["alice","carol"]))

set_option maxRecDepth 100000 in
theorem update_chain_updatedTwice : generationsOf "w" "cell-1" updatedTwice.state = [2,3] ∧
    ∃ row ∈ updatedTwice.state.instances, ∃ origin,
      materialized row.workspaceId row.id updatedTwice.log = some origin ∧ UpdateChain origin row updatedTwice.state := by
  have recorded : generationsOf "w" "cell-1" updatedTwice.state = [2,3] ∧
      updatedTwice.state.instances.has ("w","cell-1") := by decide +kernel
  obtain ⟨generations,row,live,_⟩ := recorded
  have reached : Reached updatedTwice := ran_reached _
  exact ⟨generations,row,live,(update_chain reached live).1⟩
end

end Proofstorm.Store
