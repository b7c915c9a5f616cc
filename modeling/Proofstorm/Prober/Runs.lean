import Proofstorm.Prober.Steps

/-!
Runs of the scheduler. `Reached scheduler log` says that a run of registrations,
removals, dispatches and completions leads to the scheduler; its moments are in
the log, the latest first. A completion is of a job that was dispatched, at any
time and with any response. What holds in every state of a run is `Sound`; each
operation keeps it (`Sound.perform`), and no run panics (`Reached.proceeds`).
-/
namespace Proofstorm.Prober

theorem flatten_toChunks {α : Type} (size : Nat) (list : List α) : (list.toChunks size).flatten = list := by
  have go : ∀ (list : List α) (last : Array α) (done : Array (List α)),
      (List.toChunks.go size list last done).flatten = done.toList.flatten ++ last.toList ++ list := by
    intro list
    induction list with
    | nil => simp [List.toChunks.go]
    | cons a rest ih =>
      intro last done
      rw [List.toChunks.go]
      split <;> simp [ih]
  rw [List.toChunks.eq_def]
  split <;> simp [go]

theorem admitTargets_ok {ids all : List String} {targets : List ScheduledTarget}
    (admitted : admitTargets ids targets = .ok all) (distinct : ids.Nodup) :
    all.Nodup ∧ all.Perm ((targets.map fun target => target.probe.component) ++ ids) := by
  induction targets generalizing ids with
  | nil => cases admitted; exact ⟨distinct,.refl _⟩
  | cons target rest ih =>
    simp only [admitTargets,bind_ok,ensure_ok] at admitted
    obtain ⟨_,⟨new,_⟩,later⟩ := admitted
    obtain ⟨apart,same⟩ := ih later (List.nodup_cons.mpr ⟨new,distinct⟩)
    exact ⟨apart,same.trans List.perm_middle⟩

theorem admitChunks_ok {identity : Identity} {ids : List String} {chunks : List (List ScheduledTarget)}
    (admitted : admitChunks identity ids chunks = .ok ()) (distinct : ids.Nodup) :
    ((chunks.flatten.map fun target => target.probe.component) ++ ids).Nodup := by
  induction chunks generalizing ids with
  | nil => simpa using distinct
  | cons chunk rest ih =>
    simp only [admitChunks,bind_ok] at admitted
    obtain ⟨_,_,next,first,later⟩ := admitted
    obtain ⟨apart,same⟩ := admitTargets_ok first distinct
    have whole := ih later apart
    refine (List.Perm.nodup_iff ?_).mp whole
    refine (same.append_left _).trans ?_
    simp only [List.flatten_cons,List.map_append,List.append_assoc]
    exact (List.perm_append_comm_assoc _ _ _)

/-- The registered targets are the requested ones, each under its name. -/
theorem get_byName {targets : List ScheduledTarget}
    (distinct : (targets.map fun target => target.probe.component).Nodup) {component : String} {target : ScheduledTarget} :
    (byName targets)[component]? = some target ↔ target ∈ targets ∧ target.probe.component = component := by
  rw [byName,BTreeMap.get_collect (by simpa [Function.comp_def] using distinct)]
  constructor
  · intro member
    obtain ⟨other,there,same⟩ := List.mem_map.mp member
    cases same
    exact ⟨there,rfl⟩
  · rintro ⟨member,rfl⟩
    exact List.mem_map_of_mem member

/-- The targets of a cell are under their names, each with a number, and nothing
    else is due. -/
structure Cell.Ready (cell : Cell) : Prop where
  due : ∀ component, 0 < cell.queued component → component ∈ cell.targets
  named : ∀ component (target : ScheduledTarget), cell.targets[component]? = some target →
    target.probe.component = component
  numbered : ∀ component, component ∈ cell.targetGenerations ↔ component ∈ cell.targets

namespace Scheduler

/-- What a registration puts in place of a cell: an edit where the identity stays,
    and a fresh cell otherwise. -/
def Registers (scheduler : Scheduler) (identity : Identity) (targets : BTreeMap String ScheduledTarget) (nowMillis : Nat)
    (cell : Cell) : Prop :=
  (∃ old, scheduler.cells[identity.instanceKey]? = some old ∧ old.identity = identity ∧
    cell = old.edit targets (scheduler.sequence + 1) nowMillis) ∨
  cell = .fresh identity targets (scheduler.sequence + 1) nowMillis

variable {scheduler : Scheduler} {nowMillis : Nat}

theorem register_ok {after : Scheduler} {identity : Identity} {targets : List ScheduledTarget}
    {changed : Bool} (registered : scheduler.register identity targets nowMillis = .ok (changed,after)) :
    after = scheduler ∨
      (targets.map fun target => target.probe.component).Nodup ∧
      ∃ cell, scheduler.Registers identity (byName targets) nowMillis cell ∧
        after =
          { cells := scheduler.cells.insert identity.instanceKey cell
            order := if identity.instanceKey ∈ scheduler.cells then scheduler.order
              else scheduler.order ++ [identity.instanceKey]
            inflight := scheduler.inflight
            sequence := scheduler.sequence + 1 } := by
  simp only [register,bind_ok,ensure_ok] at registered
  obtain ⟨_,_,_,admitted,registered⟩ := registered
  have distinct := admitChunks_ok admitted List.nodup_nil
  rw [flatten_toChunks,List.append_nil] at distinct
  split at registered
  · simp only [pure_ok,Prod.mk.injEq] at registered
    exact .inl registered.2.symm
  · refine .inr ⟨distinct,?_⟩
    simp only [bind_ok,require_ok] at registered
    obtain ⟨sequence,counted,registered⟩ := registered
    have next : sequence = scheduler.sequence + 1 := by
      rw [nextSequence] at counted
      split at counted
      · exact (Option.some.inj counted).symm
      · cases counted
    subst next
    split at registered
    · rename_i cell found
      simp only [pure_ok,Prod.mk.injEq] at registered
      obtain ⟨found,same⟩ := Option.filter_eq_some_iff.mp found
      exact ⟨_,.inl ⟨cell,found,by simpa using same,rfl⟩,registered.2.symm⟩
    · simp only [pure_ok,Prod.mk.injEq] at registered
      exact ⟨_,.inr rfl,registered.2.symm⟩

/-- What a dispatch takes for granted of the queue and of the cells. -/
structure Ready (scheduler : Scheduler) : Prop where
  listed : ∀ key ∈ scheduler.order, key ∈ scheduler.cells
  cell : ∀ {key : String} {cell : Cell}, scheduler.cells[key]? = some cell → cell.Ready

/-- What a dispatch does: it takes a batch of one cell, or only turns the queue. -/
def Dispatches (scheduler : Scheduler) (nowMillis : Nat) : Option Job → Scheduler → Prop
  | none, after =>
    after.order.Perm scheduler.order ∧ after.cells = scheduler.cells ∧ after.inflight = scheduler.inflight ∧
      after.sequence = scheduler.sequence
  | some job, after => ∃ key cell batch due generations, scheduler.cells[key]? = some cell ∧
    cell.drain nowMillis maxBatchTargets cell.due = (some batch,due) ∧ cell.generationsOf batch = .ok generations ∧
    job = cell.job key batch generations nowMillis (scheduler.sequence + 1) ∧
    after.order.Perm scheduler.order ∧ after.cells = scheduler.cells.insert key { cell with due } ∧
    after.inflight = scheduler.inflight.insert job.id key ∧ after.sequence = job.id

theorem Dispatches.of_perm {turned after : Scheduler} {result : Option Job}
    (same : turned = { scheduler with order := turned.order }) (turn : turned.order.Perm scheduler.order)
    (dispatches : turned.Dispatches nowMillis result after) : scheduler.Dispatches nowMillis result after := by
  rw [same] at dispatches
  cases result with
  | none => exact ⟨dispatches.1.trans turn,dispatches.2⟩
  | some job =>
    obtain ⟨key,cell,batch,due,generations,found,drained,read,made,order,rest⟩ := dispatches
    exact ⟨key,cell,batch,due,generations,found,drained,read,made,order.trans turn,rest⟩

theorem turns_ok (ready : scheduler.Ready) (turns : Nat) :
    ∃ result after, scheduler.turns nowMillis (scheduler.sequence + 1) turns = .ok (result,after) ∧
      scheduler.Dispatches nowMillis result after := by
  induction turns generalizing scheduler with
  | zero => exact ⟨none,scheduler,rfl,.refl _,rfl,rfl,rfl⟩
  | succ turns ih =>
    rw [Scheduler.turns]
    split
    · exact ⟨none,scheduler,rfl,.refl _,rfl,rfl,rfl⟩
    · rename_i key rest order
      have turn : (rest ++ [key]).Perm scheduler.order := order ▸ List.perm_append_singleton key rest
      have next : ({ scheduler with order := rest ++ [key] } : Scheduler).Ready :=
        ⟨fun other member => ready.listed other (turn.subset member),ready.cell⟩
      have later := ih next
      dsimp only
      split
      · obtain ⟨result,after,called,dispatches⟩ := later
        exact ⟨result,after,called,dispatches.of_perm rfl turn⟩
      · obtain ⟨cell,found⟩ := BTreeMap.mem_iff.mp (ready.listed key (order ▸ List.mem_cons_self))
        rw [found]
        have known : ∀ entry ∈ cell.due, entry.component ∈ cell.targets := fun entry member =>
          (ready.cell found).due _ ((Heap.count_pos _).mpr ⟨entry,member,rfl⟩)
        obtain ⟨batch,due,drained⟩ := Cell.drain_some nowMillis maxBatchTargets known
        simp only [drained]
        cases batch with
        | nil =>
          have same := Cell.drain_nil drained
          subst same
          obtain ⟨result,after,called,dispatches⟩ := later
          simp only [BTreeMap.insert_get found]
          exact ⟨result,after,called,dispatches.of_perm rfl turn⟩
        | cons first others =>
          obtain ⟨_,from_cell⟩ := Cell.queued_drain (ready.cell found).named drained
          have numbered : ∀ probe ∈ first :: others, probe.component ∈ cell.targetGenerations := by
            intro probe member
            obtain ⟨target,there,_⟩ := from_cell probe member
            exact ((ready.cell found).numbered _).mpr (BTreeMap.mem_of_get there)
          obtain ⟨generations,read⟩ := Cell.generationsOf_ok numbered
          refine ⟨some (cell.job key (first :: others) generations nowMillis (scheduler.sequence + 1)),_,
            by simp only [read,ok_bind]; rfl,?_⟩
          exact ⟨key,cell,_,due,generations,found,drained,read,rfl,turn,rfl,rfl,rfl⟩

theorem dispatch_ok (ready : scheduler.Ready) (nowMillis : Nat) :
    ∃ result after, scheduler.dispatch nowMillis = .ok (result,after) ∧ scheduler.Dispatches nowMillis result after := by
  have idle : scheduler.Dispatches nowMillis none scheduler := ⟨.refl _,rfl,rfl,rfl⟩
  rw [dispatch]
  split
  · exact ⟨none,scheduler,rfl,idle⟩
  · rw [nextSequence]
    split_ifs
    · exact turns_ok ready _
    · exact ⟨none,scheduler,rfl,idle⟩

/-- What a completion does: it frees the job's slot, and where the job was in
    flight and is current its cell concludes it. -/
def Completes (scheduler : Scheduler) (job : Job) (response : Option Response) (nowMillis : Nat) (after : Scheduler) : Prop :=
  after.order = scheduler.order ∧ after.inflight = scheduler.inflight.erase job.id ∧
    after.sequence = scheduler.sequence ∧
    (after.cells = scheduler.cells ∧ ¬ (job.id ∈ scheduler.inflight ∧ scheduler.jobIsCurrent job) ∨
      ∃ cell concluded, scheduler.cells[job.identity.instanceKey]? = some cell ∧ job.id ∈ scheduler.inflight ∧
        cell.generation = job.generation ∧
        cell.conclude job (response.bind (validateResponse job)) nowMillis = .ok concluded ∧
        after.cells = scheduler.cells.insert job.identity.instanceKey concluded)

theorem complete_ok (ready : scheduler.Ready) {job : Job} (distinct : job.request.components.Nodup)
    (response : Option Response) (nowMillis : Nat) :
    ∃ done after, scheduler.complete job response nowMillis = .ok (done,after) ∧
      scheduler.Completes job response nowMillis after := by
  rw [complete]
  dsimp only
  split
  · rename_i idle
    refine ⟨_,_,rfl,rfl,rfl,rfl,.inl ⟨rfl,?_⟩⟩
    rintro ⟨slot,current⟩
    rcases idle with free | stale
    · exact free slot
    · exact stale current
  · rename_i taken
    simp only [not_or,not_not] at taken
    obtain ⟨slot,cell,found,generation,_⟩ := taken
    have found : scheduler.cells[job.identity.instanceKey]? = some cell := found
    obtain ⟨concluded,called,_⟩ := Cell.conclude_ok nowMillis
      (response.bind (validateResponse job)) (fun component => ((ready.cell found).numbered component).mp) distinct
    simp only [found,called,ok_bind]
    exact ⟨_,_,rfl,rfl,rfl,rfl,.inr ⟨cell,concluded,found,slot,generation,called,rfl⟩⟩
end Scheduler

end Proofstorm.Prober
