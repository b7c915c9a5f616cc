import Proofstorm.Prober.Runs

/-!
No target is lost and none is probed twice at once. `Sound` is what every state of
a run satisfies: each target of a cell is due once, or in exactly one job that is
in flight and took it under the number it has now. A registration renews numbers
above every job's, a dispatch moves targets from the heap to its job, and a
completion moves back those the job still holds (`Sound.perform`); with it no run
panics (`Reached.proceeds`).
-/
namespace Proofstorm.Prober

inductive Action
  | register (identity : Identity) (targets : List ScheduledTarget) (nowMillis : Nat)
  | remove (instanceKey : String)
  | dispatch (nowMillis : Nat)
  | complete (job : Job) (response : Option Response) (nowMillis : Nat)

/-- The effect of a call; a registration that fails leaves the scheduler as it is. -/
def Scheduler.perform (scheduler : Scheduler) : Action → Except Panic (Option Job × Scheduler)
  | .register identity targets nowMillis =>
    match scheduler.register identity targets nowMillis with
    | .ok (_,after) => .ok (none,after)
    | .error _ => .ok (none,scheduler)
  | .remove instanceKey => .ok (none,scheduler.remove instanceKey)
  | .dispatch nowMillis => scheduler.dispatch nowMillis
  | .complete job response nowMillis => do
    let (_,after) ← scheduler.complete job response nowMillis
    return (none,after)

/-- One call of a run, with the job it gave out. -/
structure Moment where
  before : Scheduler
  action : Action
  dispatched : Option Job
  after : Scheduler

/-- The jobs given out so far, the latest first. -/
def jobsOf (log : List Moment) : List Job := log.filterMap Moment.dispatched

/-- A completion is of a job that was given out. -/
def Action.Known (log : List Moment) : Action → Prop
  | .complete job _ _ => job ∈ jobsOf log
  | _ => True

/-- The states of a run, with its moments. -/
inductive Reached : Scheduler → List Moment → Prop
  | start : Reached .default []
  | step {scheduler after : Scheduler} {log : List Moment} {action : Action} {dispatched : Option Job}
      (reached : Reached scheduler log) (known : action.Known log)
      (performed : scheduler.perform action = .ok (dispatched,after)) :
      Reached after (⟨scheduler,action,dispatched,after⟩ :: log)

/-! ### What every state satisfies -/

/-- How many jobs in flight hold the target. -/
def Scheduler.carried (scheduler : Scheduler) (jobs : List Job) (cell : Cell) (component : String) : Nat :=
  jobs.countP fun job => job.id ∈ scheduler.inflight ∧ job.identity.instanceKey = cell.identity.instanceKey ∧
    cell.holds job component

/-- Numbers up to `sequence`. -/
structure Cell.Past (cell : Cell) (sequence : Nat) : Prop where
  generation : cell.generation ≤ sequence
  targets : ∀ {component : String} {generation : Nat}, cell.targetGenerations[component]? = some generation → generation ≤ sequence

/-- A job names each target once, and every number it took is before its own. -/
structure Job.Sound (job : Job) (sequence : Nat) : Prop where
  distinct : job.request.components.Nodup
  covers : ∀ component, component ∈ job.targetGenerations ↔ component ∈ job.request.components
  earlier : ∀ {component : String} {generation : Nat}, job.targetGenerations[component]? = some generation → generation < job.id
  past : job.id ≤ sequence

/-- What the numbers of a job and of its cell say about each other: where they
    agree, the job is of this cell and of this target; and a target that was there
    when the job took one of its name is the one it took. -/
structure Job.Agrees (job : Job) (cell : Cell) : Prop where
  same : ∀ {component : String}, cell.holds job component → job.identity = cell.identity ∧ job.generation = cell.generation ∧
    ∃ target, cell.targets[component]? = some target ∧ target.probe ∈ job.request.targets
  timely : ∀ {component : String} {generation : Nat}, component ∈ job.targetGenerations →
    cell.targetGenerations[component]? = some generation → generation < job.id → cell.holds job component

structure Sound (scheduler : Scheduler) (jobs : List Job) : Prop where
  distinct : scheduler.order.Nodup
  listed : ∀ key, key ∈ scheduler.order ↔ key ∈ scheduler.cells
  keyed : ∀ {key : String} {cell : Cell}, scheduler.cells[key]? = some cell → cell.identity.instanceKey = key
  ready : ∀ {key : String} {cell : Cell}, scheduler.cells[key]? = some cell → cell.Ready
  past : ∀ {key : String} {cell : Cell}, scheduler.cells[key]? = some cell → cell.Past scheduler.sequence
  job : ∀ job ∈ jobs, job.Sound scheduler.sequence
  ids : (jobs.map Job.id).Nodup
  agrees : ∀ job ∈ jobs, ∀ {cell : Cell}, scheduler.cells[job.identity.instanceKey]? = some cell → job.Agrees cell
  balanced : ∀ {key : String} {cell : Cell}, scheduler.cells[key]? = some cell →
    ∀ component ∈ cell.targets, cell.queued component + scheduler.carried jobs cell component = 1

theorem Sound.dispatches {scheduler : Scheduler} {jobs : List Job} (sound : Sound scheduler jobs) : scheduler.Ready :=
  ⟨fun key member => (sound.listed key).mp member,sound.ready⟩

variable {job : Job} {sequence later : Nat} {cell : Cell}

theorem Job.Sound.mono (sound : job.Sound sequence) (le : sequence ≤ later) :
    job.Sound later :=
  ⟨sound.distinct,sound.covers,sound.earlier,sound.past.trans le⟩

theorem Cell.Past.mono (past : cell.Past sequence) (le : sequence ≤ later) :
    cell.Past later :=
  ⟨past.generation.trans le,fun found => (past.targets found).trans le⟩

/-- Under one name, or with no name at all, a job holds a target of the cell by its number. -/
theorem Cell.holds_iff {component : String} : cell.holds job component ↔
    ∃ generation, job.targetGenerations[component]? = some generation ∧
      cell.targetGenerations[component]? = some generation := by
  constructor
  · rintro ⟨member,same⟩
    obtain ⟨generation,found⟩ := BTreeMap.mem_iff.mp member
    exact ⟨generation,found,same.trans found⟩
  · rintro ⟨generation,taken,found⟩
    exact ⟨BTreeMap.mem_of_get taken,found.trans taken.symm⟩

/-! ### Registration -/

section
variable {cell : Cell} {job : Job} {sequence nowMillis : Nat} {targets : BTreeMap String ScheduledTarget}
  {identity : Identity} {component : String}

/-- An unchanged target stays a target. -/
theorem Cell.mem_of_unchanged (unchanged : ¬ cell.changed targets component) :
    component ∈ cell.targets ↔ component ∈ targets := by
  have same : cell.targets[component]? = targets[component]? := not_not.mp unchanged
  rw [BTreeMap.mem_iff,BTreeMap.mem_iff,same]

/-- A number above every job's is held by none. -/
theorem Job.Sound.older (sound : job.Sound sequence) : job.targetGenerations[component]? ≠ some (sequence + 1) := by
  intro taken
  have before := sound.earlier taken
  have past := sound.past
  omega

theorem Cell.holds_edit (sound : job.Sound sequence) :
    (cell.edit targets (sequence + 1) nowMillis).holds job component ↔
      cell.holds job component ∧ ¬ cell.changed targets component := by
  rw [holds_iff,holds_iff]
  simp only [get_edit_generations]
  by_cases changed : cell.changed targets component
  · simp only [changed,if_true,not_true,and_false,iff_false]
    rintro ⟨generation,taken,found⟩
    split at found
    · cases found
      exact sound.older taken
    · cases found
  · simp [changed]

theorem Cell.not_holds_fresh (sound : job.Sound sequence) :
    ¬ (fresh identity targets (sequence + 1) nowMillis).holds job component := by
  rw [holds_iff]
  rintro ⟨generation,taken,found⟩
  rw [get_fresh_generations] at found
  split at found
  · cases found
    exact sound.older taken
  · cases found

/-- Targets each under its name. -/
def Named (targets : BTreeMap String ScheduledTarget) : Prop :=
  ∀ component (target : ScheduledTarget), targets[component]? = some target → target.probe.component = component

theorem Cell.Ready.edit (ready : cell.Ready) (named : Named targets) : (cell.edit targets sequence nowMillis).Ready where
  due component queued := by
    rw [queued_edit] at queued
    split at queued
    · split at queued
      · assumption
      · simp at queued
    · rename_i unchanged
      exact (mem_of_unchanged unchanged).mp (ready.due component queued)
  named := named
  numbered component := by
    rw [BTreeMap.mem_iff,edit_targets]
    simp only [get_edit_generations]
    by_cases changed : cell.changed targets component
    · by_cases present : component ∈ targets <;> simp [changed,present]
    · simp only [changed,if_false,← BTreeMap.mem_iff,ready.numbered,mem_of_unchanged changed]

theorem Cell.Ready.fresh (named : Named targets) : (fresh identity targets sequence nowMillis).Ready where
  due component queued := by
    rw [queued_fresh] at queued
    split at queued
    · assumption
    · simp at queued
  named := named
  numbered component := by
    rw [BTreeMap.mem_iff]
    simp only [get_fresh_generations]
    by_cases present : component ∈ targets
    · simp [present,Cell.fresh]
    · simp [present,Cell.fresh]

theorem Cell.Past.edit (past : cell.Past sequence) : (cell.edit targets (sequence + 1) nowMillis).Past (sequence + 1) where
  generation := by
    rw [(edit_frame (sequence + 1) nowMillis cell targets).2]
    exact past.generation.trans (Nat.le_succ _)
  targets found := by
    rw [get_edit_generations] at found
    split at found
    · split at found
      · cases found; rfl
      · cases found
    · exact (past.targets found).trans (Nat.le_succ _)

theorem Cell.Past.fresh : (fresh identity targets sequence nowMillis).Past sequence where
  generation := Nat.le_refl _
  targets found := by
    rw [get_fresh_generations] at found
    split at found
    · cases found; rfl
    · cases found

theorem Job.Agrees.edit (agrees : job.Agrees cell) (sound : job.Sound sequence) :
    job.Agrees (cell.edit targets (sequence + 1) nowMillis) where
  same holds := by
    obtain ⟨before,unchanged⟩ := (Cell.holds_edit sound).mp holds
    obtain ⟨identity,generation⟩ := Cell.edit_frame (sequence + 1) nowMillis cell targets
    obtain ⟨sameIdentity,sameGeneration,target,found,probe⟩ := agrees.same before
    have kept := not_not.mp unchanged
    exact ⟨sameIdentity.trans identity.symm,sameGeneration.trans generation.symm,target,kept.symm.trans found,probe⟩
  timely taken found older := by
    have past := sound.past
    rw [Cell.get_edit_generations] at found
    split at found
    · split at found
      · cases found
        omega
      · cases found
    · rename_i unchanged
      exact (Cell.holds_edit sound).mpr ⟨agrees.timely taken found older,unchanged⟩

theorem Job.Agrees.fresh (sound : job.Sound sequence) : job.Agrees (.fresh identity targets (sequence + 1) nowMillis) where
  same holds := absurd holds (Cell.not_holds_fresh sound)
  timely taken found older := by
    have past := sound.past
    rw [Cell.get_fresh_generations] at found
    split at found
    · cases found
      omega
    · cases found
end

section
variable {scheduler : Scheduler} {jobs : List Job}

variable {component : String} {nowMillis : Nat} {log : List Moment}

theorem Scheduler.carried_eq_zero (none : ∀ job ∈ jobs, ¬ cell.holds job component) :
    scheduler.carried jobs cell component = 0 := by
  rw [carried,List.countP_eq_zero]
  intro job member
  simp [none job member]

theorem Scheduler.carried_congr {after : Scheduler} {old : Cell}
    (slots : after.inflight = scheduler.inflight) (identity : cell.identity = old.identity)
    (holds : ∀ job ∈ jobs, cell.holds job component ↔ old.holds job component) :
    after.carried jobs cell component = scheduler.carried jobs old component := by
  refine List.countP_congr fun job member => ?_
  simp [slots,identity,holds job member]

/-- The queue names the cells once each, also after a new one. -/
theorem Sound.listed_insert (sound : Sound scheduler jobs) (key : String) (cell : Cell) :
    (if key ∈ scheduler.cells then scheduler.order else scheduler.order ++ [key]).Nodup ∧
      ∀ other, other ∈ (if key ∈ scheduler.cells then scheduler.order else scheduler.order ++ [key]) ↔
        other ∈ scheduler.cells.insert key cell := by
  split
  · rename_i present
    refine ⟨sound.distinct,fun other => ?_⟩
    rw [sound.listed,BTreeMap.mem_iff,BTreeMap.mem_iff]
    simp only [BTreeMap.get_insert]
    split
    · rename_i same
      subst same
      simpa [← BTreeMap.mem_iff] using present
    · rfl
  · rename_i absent
    refine ⟨?_,fun other => ?_⟩
    · refine List.nodup_append.mpr ⟨sound.distinct,by simp,?_⟩
      rintro a member b new rfl
      rw [List.mem_singleton] at new
      subst new
      exact absent ((sound.listed a).mp member)
    · rw [List.mem_append,List.mem_singleton,sound.listed,BTreeMap.mem_iff,BTreeMap.mem_iff]
      simp only [BTreeMap.get_insert]
      by_cases same : key = other
      · simp [same]
      · simp [same,Ne.symm same]

/-- A registered cell under the next number, whatever it replaces. -/
theorem Sound.registers (sound : Sound scheduler jobs) {identity : Identity} {targets : BTreeMap String ScheduledTarget}
    {nowMillis : Nat} {cell : Cell} (registers : scheduler.Registers identity targets nowMillis cell)
    (named : Named targets) :
    cell.identity = identity ∧ cell.Ready ∧ cell.Past (scheduler.sequence + 1) ∧
      (∀ job ∈ jobs, job.identity.instanceKey = identity.instanceKey → job.Agrees cell) ∧
      ∀ component ∈ cell.targets, cell.queued component + scheduler.carried jobs cell component = 1 := by
  rcases registers with ⟨old,found,same,rfl⟩ | rfl
  · have frame := (Cell.edit_frame (scheduler.sequence + 1) nowMillis old targets).1
    refine ⟨frame.trans same,(sound.ready found).edit named,(sound.past found).edit,fun job member addressed => ?_,
      fun component present => ?_⟩
    · exact (sound.agrees job member (addressed ▸ found)).edit (sound.job job member)
    · have holds : ∀ job ∈ jobs, (old.edit targets (scheduler.sequence + 1) nowMillis).holds job component ↔
          old.holds job component ∧ ¬ old.changed targets component := fun job member => Cell.holds_edit (sound.job job member)
      rw [Cell.queued_edit]
      by_cases changed : old.changed targets component
      · have zero : scheduler.carried jobs (old.edit targets (scheduler.sequence + 1) nowMillis) component = 0 :=
          Scheduler.carried_eq_zero fun job member held => ((holds job member).mp held).2 changed
        simp [changed,show component ∈ targets from present,zero]
      · have kept : component ∈ old.targets := (Cell.mem_of_unchanged changed).mpr present
        rw [if_neg changed,Scheduler.carried_congr rfl frame fun job member => by simp [holds job member,changed]]
        exact sound.balanced found component kept
  · refine ⟨rfl,.fresh named,.fresh,fun job member _ => .fresh (sound.job job member),fun component present => ?_⟩
    rw [Cell.queued_fresh,if_pos (show component ∈ targets from present),Scheduler.carried_eq_zero fun job member =>
      Cell.not_holds_fresh (sound.job job member)]

theorem Sound.register {after : Scheduler} {identity : Identity} {targets : List ScheduledTarget}
    {changed : Bool} (sound : Sound scheduler jobs)
    (registered : scheduler.register identity targets nowMillis = .ok (changed,after)) : Sound after jobs := by
  rcases Scheduler.register_ok registered with rfl | ⟨distinct,cell,registers,rfl⟩
  · exact sound
  · have named : Named (byName targets) := fun component target found => ((get_byName distinct).mp found).2
    obtain ⟨identical,ready,past,agrees,balanced⟩ := sound.registers registers named
    obtain ⟨order,listed⟩ := sound.listed_insert identity.instanceKey cell
    have later := Nat.le_succ scheduler.sequence
    refine ⟨order,listed,fun found => ?_,fun found => ?_,fun found => ?_,fun job member => (sound.job job member).mono later,
      sound.ids,fun job member other found => ?_,fun found => ?_⟩
    · rcases BTreeMap.of_get_insert found with ⟨rfl,rfl⟩ | ⟨_,found⟩
      · rw [identical]
      · exact sound.keyed found
    · rcases BTreeMap.of_get_insert found with ⟨rfl,rfl⟩ | ⟨_,found⟩
      · exact ready
      · exact sound.ready found
    · rcases BTreeMap.of_get_insert found with ⟨rfl,rfl⟩ | ⟨_,found⟩
      · exact past
      · exact (sound.past found).mono later
    · rcases BTreeMap.of_get_insert found with ⟨same,rfl⟩ | ⟨_,found⟩
      · exact agrees job member same
      · exact sound.agrees job member found
    · rcases BTreeMap.of_get_insert found with ⟨rfl,rfl⟩ | ⟨_,found⟩
      · exact balanced
      · exact sound.balanced found

theorem Sound.remove (sound : Sound scheduler jobs) (instanceKey : String) : Sound (scheduler.remove instanceKey) jobs := by
  have kept : ∀ {key : String} {cell : Cell}, (scheduler.remove instanceKey).cells[key]? = some cell →
      key ≠ instanceKey ∧ scheduler.cells[key]? = some cell := BTreeMap.of_get_erase
  refine ⟨sound.distinct.filter _,fun key => ?_,fun found => sound.keyed (kept found).2,fun found => sound.ready (kept found).2,
    fun found => sound.past (kept found).2,sound.job,sound.ids,fun job member cell found => sound.agrees job member (kept found).2,
    fun found => sound.balanced (kept found).2⟩
  simp only [Scheduler.remove,List.mem_filter,sound.listed,BTreeMap.mem_iff,BTreeMap.get_erase]
  by_cases same : instanceKey = key
  · simp [same]
  · simp [same,Ne.symm same]

/-! ### Dispatch -/

/-- A job just taken holds its batch. -/
theorem Cell.holds_taken {key : String} {batch : List Target} {generations : BTreeMap String Nat}
    {id : Nat} (distinct : (batch.map Target.component).Nodup)
    (read : cell.generationsOf batch = .ok generations) (ready : cell.Ready)
    (known : ∀ component ∈ batch.map Target.component, component ∈ cell.targets) (component : String) :
    cell.holds (cell.job key batch generations nowMillis id) component ↔ component ∈ batch.map Target.component := by
  rw [holds_iff]
  constructor
  · rintro ⟨generation,taken,_⟩
    exact ((get_generationsOf distinct read component generation).mp taken).1
  · intro member
    obtain ⟨generation,found⟩ := BTreeMap.mem_iff.mp ((ready.numbered component).mpr (known component member))
    exact ⟨generation,(get_generationsOf distinct read component generation).mpr ⟨member,found⟩,found⟩

/-- The new job counts where it holds the target; the others keep their slots. -/
theorem Scheduler.carried_cons {after : Scheduler} {job : Job} {key : String} {cell : Cell} {component : String}
    (inflight : after.inflight = scheduler.inflight.insert job.id key) (apart : ∀ other ∈ jobs, other.id ≠ job.id) :
    after.carried (job :: jobs) cell component = scheduler.carried jobs cell component +
      if job.identity.instanceKey = cell.identity.instanceKey ∧ cell.holds job component then 1 else 0 := by
  have slot : ∀ id, id ∈ after.inflight ↔ id = job.id ∨ id ∈ scheduler.inflight := by
    intro id
    rw [inflight,BTreeMap.mem_iff,BTreeMap.mem_iff]
    simp only [BTreeMap.get_insert]
    by_cases same : job.id = id
    · simp [same]
    · simp [same,Ne.symm same]
  have others : jobs.countP (fun job => job.id ∈ after.inflight ∧ job.identity.instanceKey = cell.identity.instanceKey ∧
      cell.holds job component) = scheduler.carried jobs cell component :=
    List.countP_congr fun other member => by simp [slot,apart other member]
  rw [carried,List.countP_cons,others]
  simp [slot]

theorem Sound.dispatch {dispatched : Option Job} {after : Scheduler} (sound : Sound scheduler jobs)
    (dispatches : scheduler.Dispatches nowMillis dispatched after) : Sound after (dispatched.toList ++ jobs) := by
  cases dispatched with
  | none =>
    obtain ⟨order,cells,inflight,sequence⟩ := dispatches
    refine ⟨order.nodup_iff.mpr sound.distinct,fun key => ?_,?_,?_,?_,?_,sound.ids,?_,?_⟩
    · rw [order.mem_iff,cells,sound.listed]
    · rw [cells]; exact sound.keyed
    · rw [cells]; exact sound.ready
    · rw [cells,sequence]; exact sound.past
    · rw [sequence]; exact sound.job
    · rw [cells]; exact sound.agrees
    · rw [cells]
      intro key cell found component member
      have same : after.carried jobs cell component = scheduler.carried jobs cell component :=
        Scheduler.carried_congr inflight rfl fun _ _ => Iff.rfl
      exact (congrArg (cell.queued component + ·) same).trans (sound.balanced found component member)
  | some job =>
    obtain ⟨key,cell,batch,due,generations,found,drained,read,rfl,order,cells,inflight,sequence⟩ := dispatches
    have ready := sound.ready found
    have named := sound.keyed found
    obtain ⟨counts,from_cell⟩ := Cell.queued_drain ready.named drained
    have known : ∀ component ∈ batch.map Target.component, component ∈ cell.targets := by
      intro component member
      obtain ⟨probe,taken,rfl⟩ := List.mem_map.mp member
      obtain ⟨target,here,_⟩ := from_cell probe taken
      exact BTreeMap.mem_of_get here
    have due_count : ∀ component, cell.queued component =
        ({ cell with due } : Cell).queued component + (batch.map Target.component).count component := counts
    have distinct : (batch.map Target.component).Nodup := by
      refine List.nodup_iff_count_le_one.mpr fun component => ?_
      by_cases member : component ∈ batch.map Target.component
      · have once := sound.balanced found component (known component member)
        have split := due_count component
        omega
      · rw [List.count_eq_zero_of_not_mem member]
        exact Nat.zero_le 1
    let job := cell.job key batch generations nowMillis (scheduler.sequence + 1)
    have holds : ∀ component, cell.holds job component ↔ component ∈ batch.map Target.component :=
      Cell.holds_taken distinct read ready known
    have apart : ∀ other ∈ jobs, other.id ≠ job.id := fun other member =>
      Nat.ne_of_lt (Nat.lt_succ_of_le (sound.job other member).past)
    have whole := @Scheduler.carried_cons scheduler jobs after job key
    have advanced : after.sequence = scheduler.sequence + 1 := sequence
    have same_order : ∀ other, other ∈ after.order ↔ other ∈ after.cells := by
      intro other
      rw [order.mem_iff,sound.listed,cells,BTreeMap.mem_iff,BTreeMap.mem_iff]
      simp only [BTreeMap.get_insert]
      by_cases same : key = other
      · subst same
        simp [found]
      · simp [same]
    have new_sound : job.Sound after.sequence := by
      refine ⟨distinct,fun component => ?_,fun taken => ?_,sequence ▸ Nat.le_refl _⟩
      · constructor
        · intro member
          obtain ⟨generation,taken⟩ := BTreeMap.mem_iff.mp member
          exact ((Cell.get_generationsOf distinct read _ generation).mp taken).1
        · intro member
          exact ((holds component).mpr member).1
      · have number := ((Cell.get_generationsOf distinct read _ _).mp taken).2
        exact Nat.lt_succ_of_le ((sound.past found).targets number)
    refine ⟨order.nodup_iff.mpr sound.distinct,same_order,fun {other next} there => ?_,fun {other next} there => ?_,
      fun {other next} there => ?_,?_,?_,?_,fun {other next} there component member => ?_⟩
    · rcases BTreeMap.of_get_insert (cells ▸ there) with ⟨rfl,rfl⟩ | ⟨_,there⟩
      · exact named
      · exact sound.keyed there
    · rcases BTreeMap.of_get_insert (cells ▸ there) with ⟨rfl,rfl⟩ | ⟨_,there⟩
      · exact ⟨fun component queued => ready.due component (by rw [due_count]; omega),ready.named,ready.numbered⟩
      · exact sound.ready there
    · have later : scheduler.sequence ≤ after.sequence := by omega
      rcases BTreeMap.of_get_insert (cells ▸ there) with ⟨rfl,rfl⟩ | ⟨_,there⟩
      · have past := (sound.past found).mono later
        exact ⟨past.generation,past.targets⟩
      · exact (sound.past there).mono later
    · rintro other (_ | ⟨_,member⟩)
      · exact new_sound
      · exact (sound.job other member).mono (by omega)
    · refine List.nodup_cons.mpr ⟨?_,sound.ids⟩
      intro member
      obtain ⟨other,present,same⟩ := List.mem_map.mp member
      exact apart other present same
    · rintro other (_ | ⟨_,member⟩) next there
      · rcases BTreeMap.of_get_insert (cells ▸ there) with ⟨_,rfl⟩ | ⟨elsewhere,_⟩
        · refine ⟨fun {component} held => ⟨rfl,rfl,?_⟩,fun {component _} taken _ _ => ?_⟩
          · obtain ⟨probe,taken,rfl⟩ := List.mem_map.mp ((holds component).mp held)
            obtain ⟨target,here,rfl⟩ := from_cell probe taken
            exact ⟨target,here,taken⟩
          · exact (holds component).mpr ((new_sound.covers component).mp taken)
        · exact absurd named elsewhere
      · rcases BTreeMap.of_get_insert (cells ▸ there) with ⟨same,rfl⟩ | ⟨_,there⟩
        · have agrees := sound.agrees other member (same ▸ found)
          exact ⟨agrees.same,agrees.timely⟩
        · exact sound.agrees other member there
    · have total := @whole next component inflight apart
      rcases BTreeMap.of_get_insert (cells ▸ there) with ⟨rfl,rfl⟩ | ⟨elsewhere,there⟩
      · have once := sound.balanced found component member
        have split := due_count component
        rw [distinct.count] at split
        have held : ({ cell with due } : Cell).holds job component ↔ component ∈ batch.map Target.component := holds component
        have old : scheduler.carried jobs { cell with due } component = scheduler.carried jobs cell component := rfl
        rw [old] at total
        simp only [held,show job.identity.instanceKey = cell.identity.instanceKey from rfl,true_and] at total
        show _ + after.carried (job :: jobs) _ _ = 1
        omega
      · have once := sound.balanced there component member
        have other_cell : job.identity.instanceKey ≠ next.identity.instanceKey := by
          rw [sound.keyed there]
          exact fun same => elsewhere (same.symm.trans named)
        rw [if_neg fun both => other_cell both.1] at total
        show _ + after.carried (job :: jobs) _ _ = 1
        omega

/-! ### Completion -/

/-- Of a list without a key twice, the count is that of the others and of the one. -/
theorem countP_split {α : Type} {f : α → Nat} {list : List α} (distinct : (list.map f).Nodup) {a : α} (member : a ∈ list)
    (p : α → Prop) [DecidablePred p] :
    list.countP p = list.countP (fun b => f b ≠ f a ∧ p b) + if p a then 1 else 0 := by
  induction list with
  | nil => cases member
  | cons b rest ih =>
    obtain ⟨new,distinct⟩ := List.nodup_cons.mp distinct
    rcases List.mem_cons.mp member with rfl | later
    · have others : rest.countP p = rest.countP (fun b => f b ≠ f a ∧ p b) := List.countP_congr fun c present => by
        have differ : f c ≠ f a := fun same => new (same ▸ List.mem_map_of_mem present)
        simp [differ]
      rw [List.countP_cons,List.countP_cons,others]
      simp
    · have differ : f b ≠ f a := fun same => new (same ▸ List.mem_map_of_mem later)
      rw [List.countP_cons,List.countP_cons,ih distinct later]
      simp only [differ,ne_eq,not_false_eq_true,true_and]
      omega

/-- A freed slot no longer counts. -/
theorem Sound.carried_erase (sound : Sound scheduler jobs) {after : Scheduler} {job : Job} (member : job ∈ jobs)
    (inflight : after.inflight = scheduler.inflight.erase job.id) (cell : Cell) (component : String) :
    scheduler.carried jobs cell component = after.carried jobs cell component +
      if job.id ∈ scheduler.inflight ∧ job.identity.instanceKey = cell.identity.instanceKey ∧ cell.holds job component
        then 1 else 0 := by
  rw [Scheduler.carried,countP_split sound.ids member]
  congr 1
  refine List.countP_congr fun other _ => ?_
  have slot : other.id ∈ after.inflight ↔ other.id ≠ job.id ∧ other.id ∈ scheduler.inflight := by
    rw [inflight,BTreeMap.mem_iff,BTreeMap.mem_iff]
    simp only [BTreeMap.get_erase]
    by_cases same : job.id = other.id
    · simp [same]
    · simp [same,Ne.symm same]
  simp [slot,and_assoc]

theorem Sound.complete {response : Option Response} {after : Scheduler}
    (sound : Sound scheduler jobs) (member : job ∈ jobs)
    (completes : scheduler.Completes job response nowMillis after) : Sound after jobs := by
  obtain ⟨order,inflight,sequence,effect⟩ := completes
  have erased := sound.carried_erase member inflight
  have jobSound := sound.job job member
  rcases effect with ⟨cells,idle⟩ | ⟨cell,concluded,found,slot,generation,called,cells⟩
  · refine ⟨order ▸ sound.distinct,fun key => by rw [order,cells]; exact sound.listed key,by rw [cells]; exact sound.keyed,
      by rw [cells]; exact sound.ready,by rw [cells,sequence]; exact sound.past,by rw [sequence]; exact sound.job,sound.ids,
      by rw [cells]; exact sound.agrees,?_⟩
    rw [cells]
    intro key cell found component present
    have once := sound.balanced found component present
    have split := erased cell component
    rw [if_neg] at split
    · omega
    · rintro ⟨slot,addressed,held⟩
      have here : scheduler.cells[job.identity.instanceKey]? = some cell := by
        rw [addressed,sound.keyed found]
        exact found
      obtain ⟨_,generation,_⟩ := (sound.agrees job member here).same held
      exact idle ⟨slot,cell,here,generation.symm,component,Std.ExtTreeMap.mem_keys.mpr held.1,held⟩
  · have ready := sound.ready found
    obtain ⟨_,called',keeps,counts,_⟩ := Cell.conclude_ok nowMillis (response.bind (validateResponse job))
      (fun component => (ready.numbered component).mp) jobSound.distinct
    cases called.symm.trans called'
    have held : ∀ other component, concluded.holds other component ↔ cell.holds other component := by
      intro other component
      rw [Cell.holds,keeps.targetGenerations]
      rfl
    have counts : ∀ component, concluded.queued component =
        cell.queued component + if cell.holds job component then 1 else 0 := by
      intro component
      rw [counts]
      by_cases holds : cell.holds job component
      · simp [holds,(jobSound.covers component).mp holds.1]
      · simp [holds]
    have named := sound.keyed found
    refine ⟨order ▸ sound.distinct,fun key => ?_,fun {key next} there => ?_,fun {key next} there => ?_,
      fun {key next} there => ?_,by rw [sequence]; exact sound.job,sound.ids,fun other present next there => ?_,
      fun {key next} there component present => ?_⟩
    · rw [order,sound.listed,cells,BTreeMap.mem_iff,BTreeMap.mem_iff]
      simp only [BTreeMap.get_insert]
      by_cases same : job.identity.instanceKey = key
      · subst same
        simp [found]
      · simp [same]
    · rcases BTreeMap.of_get_insert (cells ▸ there) with ⟨rfl,rfl⟩ | ⟨_,there⟩
      · rw [keeps.identity,named]
      · exact sound.keyed there
    · rcases BTreeMap.of_get_insert (cells ▸ there) with ⟨rfl,rfl⟩ | ⟨_,there⟩
      · refine ⟨fun component queued => ?_,keeps.targets ▸ ready.named,by
          rw [keeps.targets,keeps.targetGenerations]; exact ready.numbered⟩
        rw [keeps.targets]
        rw [counts] at queued
        by_cases holds : cell.holds job component
        · obtain ⟨_,_,target,present,_⟩ := (sound.agrees job member found).same holds
          exact BTreeMap.mem_of_get present
        · exact ready.due component (by simpa [holds] using queued)
      · exact sound.ready there
    · rw [sequence]
      rcases BTreeMap.of_get_insert (cells ▸ there) with ⟨rfl,rfl⟩ | ⟨_,there⟩
      · have past := sound.past found
        exact ⟨keeps.generation ▸ past.generation,by rw [keeps.targetGenerations]; exact past.targets⟩
      · exact sound.past there
    · rcases BTreeMap.of_get_insert (cells ▸ there) with ⟨same,rfl⟩ | ⟨_,there⟩
      · have agrees := sound.agrees other present (same ▸ found)
        refine ⟨fun holds => ?_,fun taken number older => ?_⟩
        · rw [keeps.identity,keeps.generation,keeps.targets]
          exact agrees.same ((held other _).mp holds)
        · rw [keeps.targetGenerations] at number
          exact (held other _).mpr (agrees.timely taken number older)
      · exact sound.agrees other present there
    · rcases BTreeMap.of_get_insert (cells ▸ there) with ⟨rfl,rfl⟩ | ⟨elsewhere,there⟩
      · have once := sound.balanced found component (keeps.targets ▸ present)
        have split := erased cell component
        have same : after.carried jobs next component = after.carried jobs cell component :=
          Scheduler.carried_congr rfl keeps.identity fun other _ => held other component
        rw [same,counts]
        simp only [slot,named,true_and] at split
        omega
      · have once := sound.balanced there component present
        have split := erased next component
        rw [if_neg fun both => elsewhere ((sound.keyed there).symm.trans both.2.1.symm)] at split
        omega

/-! ### Runs -/

theorem Sound.start : Sound .default [] where
  distinct := List.nodup_nil
  listed key := by simp [Scheduler.default]
  keyed found := by simp [Scheduler.default] at found
  ready found := by simp [Scheduler.default] at found
  past found := by simp [Scheduler.default] at found
  job := nofun
  ids := List.nodup_nil
  agrees := nofun
  balanced found := by simp [Scheduler.default] at found

/-- A call proceeds, and what it leaves satisfies the invariant. -/
theorem Sound.perform {action : Action} (sound : Sound scheduler jobs)
    (known : ∀ job response nowMillis, action = .complete job response nowMillis → job ∈ jobs) :
    ∃ dispatched after, scheduler.perform action = .ok (dispatched,after) ∧ Sound after (dispatched.toList ++ jobs) := by
  cases action with
  | register identity targets nowMillis =>
    rw [Scheduler.perform]
    cases registered : scheduler.register identity targets nowMillis with
    | error code => exact ⟨none,scheduler,rfl,sound⟩
    | ok result => exact ⟨none,result.2,rfl,sound.register registered⟩
  | remove instanceKey => exact ⟨none,_,rfl,sound.remove instanceKey⟩
  | dispatch nowMillis =>
    obtain ⟨dispatched,after,called,dispatches⟩ := Scheduler.dispatch_ok sound.dispatches nowMillis
    exact ⟨dispatched,after,called,sound.dispatch dispatches⟩
  | complete job response nowMillis =>
    have member := known job response nowMillis rfl
    obtain ⟨done,after,called,completes⟩ :=
      Scheduler.complete_ok sound.dispatches (sound.job job member).distinct response nowMillis
    exact ⟨none,after,by simp only [Scheduler.perform,called,ok_bind]; rfl,sound.complete member completes⟩

theorem Action.Known.mem {action : Action} (known : action.Known log) (job : Job)
    (response : Option Response) (nowMillis : Nat) (same : action = .complete job response nowMillis) : job ∈ jobsOf log := by
  subst same
  exact known

theorem jobsOf_cons (moment : Moment) (log : List Moment) :
    jobsOf (moment :: log) = moment.dispatched.toList ++ jobsOf log := by
  cases same : moment.dispatched <;> simp [jobsOf,same]

theorem Reached.sound (reached : Reached scheduler log) : Sound scheduler (jobsOf log) := by
  induction reached with
  | start => exact .start
  | step _ known performed ih =>
    obtain ⟨_,_,called,sound⟩ := ih.perform known.mem
    cases performed.symm.trans called
    rwa [jobsOf_cons]

/-- Each target of each cell is due once or in flight once, never both; the heaps
    name only targets, and the queue names each cell once and nothing else. -/
theorem targets_kept {log : List Moment} (reached : Reached scheduler log) :
    (∀ key, scheduler.order.count key = if key ∈ scheduler.cells then 1 else 0) ∧
    ∀ (key : String) (cell : Cell), scheduler.cells[key]? = some cell →
      (∀ entry ∈ cell.due, entry.component ∈ cell.targets) ∧
      ∀ component ∈ cell.targets, cell.queued component + scheduler.carried (jobsOf log) cell component = 1 := by
  have sound := reached.sound
  refine ⟨fun key => ?_,fun key cell found => ⟨fun entry member => ?_,sound.balanced found⟩⟩
  · rw [sound.distinct.count]
    simp only [sound.listed]
  · exact (sound.ready found).due _ ((Heap.count_pos _).mpr ⟨entry,member,rfl⟩)
end

/-! ### A run to evaluate -/

instance (log : List Moment) (action : Action) : Decidable (action.Known log) :=
  match action with
  | .register .. | .remove .. | .dispatch .. => .isTrue trivial
  | .complete job _ _ => inferInstanceAs (Decidable (job ∈ jobsOf log))

/-- The run of the moves, each chosen from the jobs given out before it; a move
    that is no call of a run is left out. -/
def follow : List (List Job → Action) → Scheduler × List Moment
  | [] => (.default,[])
  | move :: earlier =>
    let (scheduler,log) := follow earlier
    let action := move (jobsOf log)
    if action.Known log then
      match scheduler.perform action with
      | .ok (dispatched,after) => (after,⟨scheduler,action,dispatched,after⟩ :: log)
      | .error _ => (scheduler,log)
    else (scheduler,log)

theorem follow_reached (moves : List (List Job → Action)) : Reached (follow moves).1 (follow moves).2 := by
  induction moves with
  | nil => exact .start
  | cons move earlier ih =>
    simp only [follow]
    split
    · rename_i known
      split
      · rename_i performed
        exact .step ih known performed
      · exact ih
    · exact ih

def sampleIdentity : Identity := ⟨"cell","incarnation","revision","worker"⟩

def sampleTarget (component runtimeDigest : String) : ScheduledTarget := ⟨⟨component,"rollout",80,none⟩,runtimeDigest⟩

/-- A complete response to a job. -/
def sampleResponse (job : Job) : Response :=
  .complete Prober.protocolVersion job.identity.instanceKey job.identity.revisionDigest job.request.batchId
    (job.request.targets.map fun target => ⟨target.component,target.rolloutDigest,.reachable,12,0,none⟩)

/-- A target restarts while a job for it and its neighbour is out; the old job
    comes back last. Latest move first. -/
def restarted : List (List Job → Action) :=
  [fun jobs => .complete (jobs.getLastD ⟨sampleIdentity,⟨0,"","","",false,[]⟩,0,0,0,∅⟩) none 4,
   fun _ => .dispatch 3,
   fun _ => .register sampleIdentity [sampleTarget "a" "replacement",sampleTarget "b" "runtime"] 2,
   fun _ => .dispatch 1,
   fun _ => .register sampleIdentity [sampleTarget "a" "runtime",sampleTarget "b" "runtime"] 0]

set_option maxRecDepth 100000 in
theorem targets_kept_restarted : ∃ cell, (follow restarted).1.cells["cell"]? = some cell ∧
    cell.queued "a" + (follow restarted).1.carried (jobsOf (follow restarted).2) cell "a" = 1 ∧
    cell.queued "b" + (follow restarted).1.carried (jobsOf (follow restarted).2) cell "b" = 1 ∧
    cell.queued "a" = 0 ∧ cell.queued "b" = 1 := by
  have seen : (follow restarted).1.cells["cell"]?.map (fun cell =>
      (decide ("a" ∈ cell.targets ∧ "b" ∈ cell.targets),cell.queued "a",cell.queued "b")) = some (true,0,1) := by
    decide +kernel
  obtain ⟨cell,found,same⟩ := Option.map_eq_some_iff.mp seen
  simp only [Prod.mk.injEq,decide_eq_true_eq] at same
  have kept := (targets_kept (follow_reached restarted)).2 "cell" cell found
  exact ⟨cell,found,kept.2 "a" same.1.1,kept.2 "b" same.1.2,same.2.1,same.2.2⟩
end Proofstorm.Prober
