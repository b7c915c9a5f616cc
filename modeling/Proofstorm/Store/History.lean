import Proofstorm.Store.System

/-!
Induction along the runs of the store. `Reached.induction` proves a fact about
the log and the database of every configuration from what one write does to it;
`Reached.always` is its case for facts about the database alone. The revisions
that writes bring with them are those published earlier in the run (`Vetted`).
-/
namespace Proofstorm.Store
open Proofstorm.Core
open Proofstorm.Interleaving (Throughout Linked)

section
variable [CoreFunctions]

/-! ### Revisions of a run -/

/-- The revisions published in a run. -/
def publications (log : List Event) : List PublishedRevision :=
  log.filterMap fun event => match event.did with
    | some (.insertRevision row) => some row.revision
    | _ => none

def Published (log : List Event) (revision : PublishedRevision) : Prop := revision ∈ publications log

variable {revision : PublishedRevision} {config : Config} {db : Db}

omit [CoreFunctions] in
theorem published_iff {log : List Event} : Published log revision ↔
    ∃ event ∈ log, ∃ row, event.did = some (.insertRevision row) ∧ row.revision = revision := by
  simp only [Published,publications,List.mem_filterMap]
  refine exists_congr fun event => and_congr_right fun _ => ?_
  split
  · rename_i row did
    rw [did]
    constructor
    · exact fun same => ⟨row,rfl,Option.some.inj same⟩
    · rintro ⟨other,same,rfl⟩
      cases same
      rfl
  · rename_i other
    constructor
    · exact fun none_ => nomatch none_
    · rintro ⟨row,did,_⟩
      exact absurd did (other row)

/-- No two revisions of the run share a digest. -/
def CollisionFree (log : List Event) : Prop :=
  ∀ a ∈ publications log, ∀ b ∈ publications log, a.digest = b.digest → a = b

instance (log : List Event) : Decidable (CollisionFree log) := by
  unfold CollisionFree
  infer_instance

/-- Published in the run, under the digest of its contents. -/
def Vetted (log : List Event) (revision : PublishedRevision) : Prop := revision.Genuine ∧ Published log revision

theorem Reached.vetted (reached : Reached config) :
    Throughout (fun _ event => ∀ row, event.did = some (.insertRevision row) → Vetted config.log row.revision)
      config.log := by
  have any : Throughout (fun _ event => ∀ row, event.did = some (.insertRevision row) → True) config.log :=
    Interleaving.throughout_iff.mpr fun _ _ _ _ _ _ => trivial
  obtain ⟨_,log⟩ := reached.warranted (fun _ => True) any
  refine Interleaving.throughout_iff.mpr fun newer event older same row did => ⟨?_,published_iff.mpr ⟨event,?_,row,did,rfl⟩⟩
  · obtain ⟨_,warranted⟩ := Interleaving.throughout_iff.mp log newer event older same
    exact (warranted _ did).1.2.2
  · simp [same]

/-! ### Induction -/

/-- What holds of a new store and is kept by every write holds in every run. `P`
    is what is known of the events of the run. -/
theorem Reached.induction_of (reached : Reached config) (P : List Event → Event → Prop)
    (given : Throughout P config.log) (Φ : List Event → Db → Prop) (first : Φ [] Db.empty)
    (quiet : ∀ older event, event.did = none → event.after = event.before → Φ older event.before →
      Φ (event :: older) event.after)
    (step : ∀ older event statement, P older event → event.did = some statement →
      Warranted (Vetted config.log) statement → Vouched (Vetted config.log) event.before →
      Write statement event.before event.after → Φ older event.before → Φ (event :: older) event.after) :
    Φ config.log config.state ∧
      Throughout (fun older event => Φ older event.before ∧ Φ (event :: older) event.after) config.log := by
  obtain ⟨_,warranted⟩ := reached.warranted _ reached.vetted
  refine reached.linked.induction ((warranted.and reached.committed).and given) first ?_
  rintro older event before ⟨⟨⟨vouched,allowed⟩,committed⟩,known⟩
  have after : Φ (event :: older) event.after := by
    cases did : event.did with
    | none =>
      rw [Interleaving.Committed,did] at committed
      exact quiet older event did committed before
    | some statement =>
      obtain ⟨fits,_,write⟩ := allowed statement did
      exact step older event statement known did fits vouched write before
  exact ⟨after,before,after⟩

theorem Reached.induction (reached : Reached config) (Φ : List Event → Db → Prop)
    (first : Φ [] Db.empty)
    (quiet : ∀ older event, event.did = none → event.after = event.before → Φ older event.before →
      Φ (event :: older) event.after)
    (step : ∀ older event statement, event.did = some statement → Warranted (Vetted config.log) statement →
      Vouched (Vetted config.log) event.before → Write statement event.before event.after → Φ older event.before →
      Φ (event :: older) event.after) :
    Φ config.log config.state ∧
      Throughout (fun older event => Φ older event.before ∧ Φ (event :: older) event.after) config.log :=
  reached.induction_of (fun _ _ => True) (Interleaving.throughout_iff.mpr fun _ _ _ _ => trivial) Φ first quiet
    fun older event statement _ => step older event statement

/-- Facts about the database alone. -/
theorem Reached.always (reached : Reached config) (fact : Db → Prop) (first : fact Db.empty)
    (step : ∀ statement db after, Warranted (Vetted config.log) statement → Vouched (Vetted config.log) db →
      Write statement db after → fact db → fact after) :
    fact config.state ∧ Throughout (fun _ event => fact event.before ∧ fact event.after) config.log :=
  reached.induction (fun _ db => fact db) first (fun _ _ _ same before => same ▸ before)
    fun _ _ statement _ warranted vouched write before => step statement _ _ warranted vouched write before

/-- Facts about the database that rest on others, shown before. -/
theorem Reached.always_of (reached : Reached config) (shown : Db → Prop)
    (given : Throughout (fun _ event => shown event.before) config.log) (fact : Db → Prop) (first : fact Db.empty)
    (step : ∀ statement db after, shown db → Warranted (Vetted config.log) statement → Vouched (Vetted config.log) db →
      Write statement db after → fact db → fact after) :
    fact config.state ∧ Throughout (fun _ event => fact event.before ∧ fact event.after) config.log :=
  reached.induction_of _ given (fun _ db => fact db) first (fun _ _ _ same before => same ▸ before)
    fun _ _ statement known _ warranted vouched write before => step statement _ _ known warranted vouched write before

/-! ### The update state after a write -/

omit [CoreFunctions] in
theorem updateState_congr {after : Db} (same : after.cellUpdateState = db.cellUpdateState) (workspace id : String) :
    updateState workspace id after = updateState workspace id db := by
  rw [updateState,updateState,same]

theorem updateState_advance (workspace principal k : String) (plan : CellUpdatePlan) (revision : PublishedRevision)
    (generation : Nat) (now : Int) (db : Db) (w i : String) :
    updateState w i (advance workspace principal k plan revision generation now db) =
      if w = workspace ∧ i = plan.target.instanceId then { updateState w i db with generation := generation }
      else updateState w i db := by
  simp only [updateState,advance,Table.find_upsert,key,Prod.mk.injEq]
  by_cases here : w = workspace ∧ i = plan.target.instanceId
  · obtain ⟨rfl,rfl⟩ := here
    rw [if_pos ⟨rfl,rfl⟩,if_pos ⟨rfl,rfl⟩]
    cases db.cellUpdateState.find (w,plan.target.instanceId) <;> rfl
  · rw [if_neg fun same => here ⟨same.1.symm,same.2.symm⟩,if_neg here]

theorem updateState_accept {workspace principal k : String} {plan : CellUpdatePlan} {now : Int}
    {cell : InstanceRow} {after : Db} (accepted : Accepted workspace principal k plan revision now cell db after)
    (w i : String) : updateState w i after =
      if w = workspace ∧ i = plan.target.instanceId then
        { updateState w i db with generation := plan.target.expectedGeneration + 1 }
      else updateState w i db := by
  rw [← updateState_advance workspace principal k plan revision (plan.target.expectedGeneration + 1) now db w i,
    accepted.after_eq]
  rfl

omit [CoreFunctions] in
theorem updateState_close (workspace id : String) (db : Db) (w i : String) :
    updateState w i (withClosing workspace id db) =
      if w = workspace ∧ i = id then { updateState w i db with closing := true } else updateState w i db := by
  simp only [updateState,withClosing,Table.find_upsert,key,Prod.mk.injEq]
  by_cases here : w = workspace ∧ i = id
  · obtain ⟨rfl,rfl⟩ := here
    rw [if_pos ⟨rfl,rfl⟩,if_pos ⟨rfl,rfl⟩]
    cases db.cellUpdateState.find (w,i) <;> rfl
  · rw [if_neg fun same => here ⟨same.1.symm,same.2.symm⟩,if_neg here]

omit [CoreFunctions] in
/-- Marking the current generation applied keeps the generation and the closing
    flag. An instance without a state row is in generation 1 and applied. -/
theorem updateState_apply {workspace id : String} {generation : Nat}
    (current : (updateState workspace id db).generation = generation) (converged : Option String) (w i : String) :
    (updateState w i (withApplied workspace id generation converged db)).generation = (updateState w i db).generation ∧
      (updateState w i (withApplied workspace id generation converged db)).closing = (updateState w i db).closing ∧
      (updateState w i (withApplied workspace id generation converged db)).appliedGeneration =
        if w = workspace ∧ i = id then max (updateState w i db).appliedGeneration generation
        else (updateState w i db).appliedGeneration := by
  simp only [updateState,withApplied,Table.find_update]
  cases found : db.cellUpdateState.find (w,i) with
  | none =>
    simp only [Option.map_none,true_and]
    split
    · rename_i here
      obtain ⟨rfl,rfl⟩ := here
      rw [updateState,found] at current
      simp [← current]
    · rfl
  | some row =>
    have keyed := (Table.find_eq_some.mp found).2
    obtain ⟨rfl,rfl⟩ : row.workspaceId = w ∧ row.instanceId = i := ⟨congrArg Prod.fst keyed,congrArg Prod.snd keyed⟩
    simp only [Option.map_some]
    by_cases here : row.workspaceId = workspace ∧ row.instanceId = id
    · obtain ⟨rfl,rfl⟩ := here
      rw [updateState,found] at current
      rw [if_pos ⟨rfl,rfl,current⟩,if_pos ⟨rfl,rfl⟩]
      exact ⟨rfl,rfl,rfl⟩
    · rw [if_neg fun chosen => here ⟨chosen.1,chosen.2.1⟩,if_neg here]
      exact ⟨rfl,rfl,rfl⟩

theorem updateState_purged (cell : CellInstance) (db : Db) (w i : String) :
    updateState w i (purged cell db) =
      if w = cell.workspaceId ∧ i = cell.id then ⟨1,1,none,false⟩ else updateState w i db := by
  simp only [updateState,purged,withoutCell,Table.find_delete]
  cases found : db.cellUpdateState.find (w,i) with
  | none => simp
  | some row =>
    have keyed := (Table.find_eq_some.mp found).2
    obtain ⟨rfl,rfl⟩ : row.workspaceId = w ∧ row.instanceId = i := ⟨congrArg Prod.fst keyed,congrArg Prod.snd keyed⟩
    by_cases here : row.workspaceId = cell.workspaceId ∧ row.instanceId = cell.id
    · rw [Option.filter_some,if_neg (by simpa using here),if_pos here]
    · rw [Option.filter_some,if_pos (decide_eq_true here),if_neg here]
end

end Proofstorm.Store
