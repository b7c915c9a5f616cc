import Proofstorm.Store.UpdateChain

/-!
Operations and component changes exclude each other. An update is accepted only
while no operation in progress names a component it changes, and an operation is
admitted only while no update above the applied generation changes a component it
names; `operations_exclusive` says that the two checks together leave no gap.
-/
namespace Proofstorm.Store
open Proofstorm.Core

section

/-- No operation in progress, reading logs apart, names a component that an
    update of its instance above the applied generation changes. -/
def Exclusive (db : Db) : Prop :=
  ∀ update ∈ db.cellUpdates, (updateState update.workspaceId update.instanceId db).appliedGeneration < update.generation →
    ∀ action ∈ db.actions, action.workspaceId = update.workspaceId → action.instanceId = update.instanceId →
      action.phase.active = true → action.kind ≠ .componentLogs → references update.plan.affected action.request = false

/-- Fewer updates, higher applied generations and fewer operations in progress exclude each other still. -/
theorem Exclusive.less {db after : Db} (exclusive : Exclusive db)
    (updates : ∀ update ∈ after.cellUpdates, update ∈ db.cellUpdates ∧
      (updateState update.workspaceId update.instanceId db).appliedGeneration ≤
        (updateState update.workspaceId update.instanceId after).appliedGeneration)
    (actions : ∀ action ∈ after.actions, action.phase.active = true → ∃ old ∈ db.actions,
      old.workspaceId = action.workspaceId ∧ old.instanceId = action.instanceId ∧ old.phase.active = true ∧
        old.kind = action.kind ∧ old.request = action.request) : Exclusive after := by
  intro update accepted pending action admitted home there active work
  obtain ⟨before,applied⟩ := updates update accepted
  obtain ⟨old,member,home_,there_,running,kind,request⟩ := actions action admitted active
  rw [← request]
  apply exclusive update before (Nat.lt_of_le_of_lt applied pending) old member
  · exact home_.trans home
  · exact there_.trans there
  · exact running
  · rw [kind]
    exact work

variable [CoreFunctions] {known : PublishedRevision → Prop} {statement : Statement} {db after : Db}

theorem Exclusive.write (exclusive : Exclusive db) (warranted : Warranted known statement)
    (write : Write statement db after) : Exclusive after := by
  cases write with
  | newAction a operation cell db after admitted =>
    rw [admitted.result]
    intro update accepted pending action member home there active work
    rcases Table.mem_insert.mp member with old | ⟨rfl,_⟩
    · exact exclusive update accepted pending action old home there active work
    · -- The admission looked at every update above the applied generation.
      apply admitted.settled work
      rw [mem_pendingPlans]
      refine ⟨update,accepted,home.symm,there.symm,?_,rfl⟩
      have above : (updateState update.workspaceId update.instanceId db).appliedGeneration < update.generation := pending
      rw [← home,← there] at above
      exact above
  | result workspace operationId session phase artifact completedAt db =>
    refine exclusive.less (fun update member => ⟨member,Nat.le_refl _⟩) fun action member active => ?_
    rcases (Table.mem_update (by exact fun _ => rfl)).mp member with ⟨old,_⟩ | ⟨old,_,_,rfl⟩
    · exact ⟨action,old,rfl,rfl,active,rfl,rfl⟩
    · -- A result ends the operation.
      have ended : phase.active = false := warranted
      rw [show phase.active = true from active] at ended
      exact absurd ended (by decide)
  | start workspace operationId phase now db =>
    refine exclusive.less (fun update member => ⟨member,Nat.le_refl _⟩) fun action member active => ?_
    rcases (Table.mem_update (by exact fun _ => rfl)).mp member with ⟨old,_⟩ | ⟨old,present,⟨_,_,pending⟩,rfl⟩
    · exact ⟨action,old,rfl,rfl,active,rfl,rfl⟩
    · exact ⟨old,present,rfl,rfl,by rw [pending]; rfl,rfl,rfl⟩
  | acknowledge _ _ _ _ _ _ _ db after acknowledged =>
    rw [(recordUpdateReceipt_ok.mp acknowledged.result).2]
    exact exclusive
  | accept workspace principal k plan revision now cell db after accepted =>
    have applied : ∀ w i, (updateState w i after).appliedGeneration = (updateState w i db).appliedGeneration := by
      intro w i
      rw [updateState_accept accepted]
      split <;> rfl
    have kept : after.actions = db.actions := by
      rw [accepted.after_eq]
      rfl
    intro update member pending action present home there active work
    rw [kept] at present
    rw [applied] at pending
    rcases accepted.mem_cellUpdates.mp member with old | rfl
    · exact exclusive update old pending action present home there active work
    · exact accepted.idle action present home there active
  | apply workspace id generation converged db current =>
    refine exclusive.less (fun update member => ⟨member,?_⟩) fun action member active => ?_
    · rw [(updateState_apply current converged update.workspaceId update.instanceId).2.2]
      split
      · exact Nat.le_max_left _ _
      · exact Nat.le_refl _
    · exact ⟨action,member,rfl,rfl,active,rfl,rfl⟩
  | beginClose workspace id db =>
    refine exclusive.less (fun update member => ⟨member,?_⟩) fun action member active => ?_
    · rw [updateState_close]
      split <;> exact Nat.le_refl _
    · exact ⟨action,member,rfl,rfl,active,rfl,rfl⟩
  | purge cell db current =>
    refine exclusive.less (fun update member => ?_) fun action member active => ?_
    · obtain ⟨old,other⟩ := mem_purged_cellUpdates.mp member
      refine ⟨old,?_⟩
      rw [updateState_purged,if_neg other]
    · exact ⟨action,(Table.mem_delete.mp member).1,rfl,rfl,active,rfl,rfl⟩
  | _ => exact exclusive

/-- Whatever calls are interleaved, operations in progress and pending updates exclude each other. -/
theorem operations_exclusive {config : Config} (reached : Reached config) : Exclusive config.state := by
  refine (reached.always Exclusive ?_ fun _ _ _ warranted _ write exclusive => exclusive.write warranted write).1
  intro update member
  exact absurd member (Table.not_mem_empty update)
end

section
attribute [local instance] CoreFunctions.sample

/-- The request of an operation on one component. -/
def onComponent (component : String) : Json := .object [("node",.str component)]

def sampleOperation (principal id k component : String) : Request :=
  .createOperation ⟨"w",principal,"cell-1","run-1","",id,.nodeStart,onComponent component,k,.cellOperate,none⟩ "" 0 0 0

/-- An operation on `alice` runs while `bob` is being removed; one on `bob` was refused. -/
def operatedDuringUpdate : Config :=
  ran (inTurn (prepared [("one",["alice","bob"]),("two",["alice"])] ++
    [sampleInstance "cell-1" "n" "k1" ["alice","bob"],.createExperiment "w" "p" "run-1" "cell-1" "k2" 0,
      sampleOperation "p" "start-alice" "k3" "alice"] ++
    sampleEdit "p" "n" "k4" ⟨"cell-1",1,false,[]⟩ ["alice","bob"] ["alice"] ++
    [sampleOperation "p" "start-bob" "k5" "bob"]))

set_option maxRecDepth 100000 in
theorem operations_exclusive_duringUpdate :
    (∃ update ∈ operatedDuringUpdate.state.cellUpdates.rows, update.plan.affected = ["bob"] ∧
      (updateState "w" "cell-1" operatedDuringUpdate.state).appliedGeneration < update.generation) ∧
    operatedDuringUpdate.state.actions.rows.map (fun action => (action.id,action.phase)) =
      [("start-alice",OperationPhase.pending)] ∧ Exclusive operatedDuringUpdate.state := by
  have seen : (∃ update ∈ operatedDuringUpdate.state.cellUpdates.rows, update.plan.affected = ["bob"] ∧
      (updateState "w" "cell-1" operatedDuringUpdate.state).appliedGeneration < update.generation) ∧
    operatedDuringUpdate.state.actions.rows.map (fun action => (action.id,action.phase)) =
      [("start-alice",OperationPhase.pending)] := by decide +kernel
  exact ⟨seen.1,seen.2,operations_exclusive (ran_reached _)⟩
end

end Proofstorm.Store
