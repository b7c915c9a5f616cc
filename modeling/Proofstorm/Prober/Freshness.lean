import Proofstorm.Prober.Turns

/-!
Where the observations of a cell come from. Each of them has a `Provenance` in
the log: a dispatch, a later completion of that job with a valid response that
has the observation, the target registered unchanged at every moment from the
dispatch on, and no completion of a later job for it (`observations_backed`). A
target whose number is not new was there before the call under the same number
(`Scheduler.stays`), so the number a job took stands for everything that could
have changed since.
-/
namespace Proofstorm.Prober

/-- A target that a call leaves alone. -/
structure Cell.Stays (before after : Cell) (component : String) : Prop where
  identity : after.identity = before.identity
  number : after.targetGenerations[component]? = before.targetGenerations[component]?
  target : after.targets[component]? = before.targets[component]?

theorem Cell.Stays.refl (cell : Cell) (component : String) : cell.Stays cell component := ⟨rfl,rfl,rfl⟩

theorem Cell.Stays.holds {before after : Cell} {component : String} (stays : before.Stays after component) (job : Job) :
    after.holds job component ↔ before.holds job component := by
  rw [Cell.holds,stays.number]
  rfl

theorem Cell.Keeps.stays {before after : Cell} (keeps : before.Keeps after) (component : String) :
    before.Stays after component :=
  ⟨keeps.identity,by rw [keeps.targetGenerations],by rw [keeps.targets]⟩

theorem Cell.stays_edit {cell : Cell} {targets : BTreeMap String ScheduledTarget} (sequence nowMillis : Nat)
    {component : String} (unchanged : ¬ cell.changed targets component) :
    cell.Stays (cell.edit targets sequence nowMillis) component where
  identity := (edit_frame sequence nowMillis cell targets).1
  number := by rw [get_edit_generations,if_neg unchanged]
  target := (not_not.mp unchanged).symm

/-- What a call does to a cell of the scheduler it leaves. -/
inductive Scheduler.Touches (scheduler : Scheduler) : Action → String → Cell → Prop
  | untouched {action : Action} {key : String} {cell : Cell} (found : scheduler.cells[key]? = some cell)
      (idle : ∀ job response nowMillis, action = .complete job response nowMillis → job.identity.instanceKey = key →
        ¬ (job.id ∈ scheduler.inflight ∧ scheduler.jobIsCurrent job)) : Touches scheduler action key cell
  | registered {identity : Identity} {targets : List ScheduledTarget} {nowMillis : Nat} {cell : Cell}
      {desired : BTreeMap String ScheduledTarget} (registers : scheduler.Registers identity desired nowMillis cell) :
      Touches scheduler (.register identity targets nowMillis) identity.instanceKey cell
  | drained {nowMillis : Nat} {key : String} {cell : Cell} {due : Heap Due} (found : scheduler.cells[key]? = some cell) :
      Touches scheduler (.dispatch nowMillis) key { cell with due }
  | concluded {job : Job} {response : Option Response} {nowMillis : Nat} {cell concluded : Cell}
      (found : scheduler.cells[job.identity.instanceKey]? = some cell) (slot : job.id ∈ scheduler.inflight)
      (called : cell.conclude job (response.bind (validateResponse job)) nowMillis = .ok concluded) :
      Touches scheduler (.complete job response nowMillis) job.identity.instanceKey concluded

section
variable {scheduler after : Scheduler} {jobs : List Job} {action : Action} {dispatched : Option Job} {key component : String}
  {cell : Cell}

theorem Sound.touches (sound : Sound scheduler jobs)
    (known : ∀ job response nowMillis, action = .complete job response nowMillis → job ∈ jobs)
    (performed : scheduler.perform action = .ok (dispatched,after)) (found : after.cells[key]? = some cell) :
    scheduler.Touches action key cell := by
  cases action with
  | register identity targets nowMillis =>
    rw [Scheduler.perform] at performed
    split at performed
    · rename_i changed next registered
      cases performed
      rcases Scheduler.register_ok registered with rfl | ⟨_,new,registers,rfl⟩
      · exact .untouched found (by simp)
      · rcases BTreeMap.of_get_insert found with ⟨rfl,rfl⟩ | ⟨_,found⟩
        · exact .registered registers
        · exact .untouched found (by simp)
    · cases performed
      exact .untouched found (by simp)
  | remove instanceKey =>
    cases performed
    exact .untouched (BTreeMap.of_get_erase found).2 (by simp)
  | dispatch nowMillis =>
    obtain ⟨_,_,called,dispatches⟩ := Scheduler.dispatch_ok sound.dispatches nowMillis
    cases performed.symm.trans called
    cases dispatched with
    | none => exact .untouched (dispatches.2.1 ▸ found) (by simp)
    | some job =>
      obtain ⟨_,_,_,_,_,here,_,_,_,_,cells,_⟩ := dispatches
      rcases BTreeMap.of_get_insert (cells ▸ found) with ⟨rfl,rfl⟩ | ⟨_,found⟩
      · exact .drained here
      · exact .untouched found (by simp)
  | complete job response nowMillis =>
    obtain ⟨_,_,called,completes⟩ := Scheduler.complete_ok sound.dispatches
      (sound.job job (known job response nowMillis rfl)).distinct response nowMillis
    simp only [Scheduler.perform,called,ok_bind,pure_ok,Prod.mk.injEq] at performed
    obtain ⟨rfl,rfl⟩ := performed
    obtain ⟨_,_,_,⟨cells,idle⟩ | ⟨old,concluded,here,slot,_,called,cells⟩⟩ := completes
    · refine .untouched (cells ▸ found) ?_
      rintro _ _ _ ⟨⟩ _
      exact idle
    · rcases BTreeMap.of_get_insert (cells ▸ found) with ⟨rfl,rfl⟩ | ⟨elsewhere,found⟩
      · exact .concluded here slot called
      · refine .untouched found ?_
        rintro _ _ _ ⟨⟩ same
        exact absurd same.symm elsewhere

/-- A target whose number is not new was there before the call, under that number. -/
theorem Sound.stays (sound : Sound scheduler jobs)
    (known : ∀ job response nowMillis, action = .complete job response nowMillis → job ∈ jobs)
    (touches : scheduler.Touches action key cell) {generation : Nat}
    (number : cell.targetGenerations[component]? = some generation) (old : generation ≤ scheduler.sequence) :
    ∃ before, scheduler.cells[key]? = some before ∧ before.Stays cell component := by
  cases touches with
  | untouched found _ => exact ⟨cell,found,.refl cell component⟩
  | registered registers =>
    rcases registers with ⟨before,found,_,rfl⟩ | rfl
    · rw [Cell.get_edit_generations] at number
      split at number
      · split at number
        · cases number
          omega
        · cases number
      · rename_i unchanged
        exact ⟨before,found,Cell.stays_edit _ _ unchanged⟩
    · rw [Cell.get_fresh_generations] at number
      split at number
      · cases number
        omega
      · cases number
  | drained found => exact ⟨_,found,⟨rfl,rfl,rfl⟩⟩
  | @concluded job response nowMillis before _ found _ called =>
    have ready := sound.ready found
    obtain ⟨_,same,keeps,_⟩ := Cell.conclude_ok nowMillis (response.bind (validateResponse job))
      (fun component => (ready.numbered component).mp) (sound.job job (known job response nowMillis rfl)).distinct
    cases called.symm.trans same
    exact ⟨before,found,keeps.stays component⟩
end

/-! ### The moments since a dispatch -/

/-- The target is registered, under the identity, at each of the moments. -/
def Steady (identity : Identity) (component : String) (target : ScheduledTarget) (moments : List Moment) : Prop :=
  ∀ moment ∈ moments, ∃ cell, moment.after.cells[identity.instanceKey]? = some cell ∧ cell.identity = identity ∧
    cell.targets[component]? = some target

theorem Steady.nil {identity : Identity} {component : String} {target : ScheduledTarget} :
    Steady identity component target [] :=
  fun _ member => absurd member List.not_mem_nil

theorem Steady.cons {identity : Identity} {component : String} {target : ScheduledTarget} {moments : List Moment}
    {moment : Moment} {cell : Cell} (steady : Steady identity component target moments)
    (found : moment.after.cells[identity.instanceKey]? = some cell) (same : cell.identity = identity)
    (here : cell.targets[component]? = some target) : Steady identity component target (moment :: moments) := by
  intro other member
  rcases List.mem_cons.mp member with rfl | member
  · exact ⟨cell,found,same,here⟩
  · exact steady other member

section
variable {scheduler : Scheduler} {log : List Moment}

/-- A job given out is of one of the moments. -/
theorem mem_jobsOf {job : Job} : job ∈ jobsOf log ↔ ∃ moment ∈ log, moment.dispatched = some job := by
  simp [jobsOf]

theorem Reached.dispatched_at (reached : Reached scheduler log) {moment : Moment} (member : moment ∈ log) {job : Job}
    (dispatched : moment.dispatched = some job) : moment.action = .dispatch job.startedAtMillis := by
  induction reached with
  | start => cases member
  | @step before after log action given reached known performed ih =>
    rcases List.mem_cons.mp member with rfl | member
    · cases dispatched
      cases action with
      | register identity targets nowMillis =>
        rw [Scheduler.perform] at performed
        split at performed <;> cases performed
      | remove instanceKey => cases performed
      | dispatch nowMillis =>
        obtain ⟨_,_,called,dispatches⟩ := Scheduler.dispatch_ok reached.sound.dispatches nowMillis
        cases performed.symm.trans called
        obtain ⟨_,_,_,_,_,_,_,_,rfl,_⟩ := dispatches
        rfl
      | complete other response nowMillis =>
        simp only [Scheduler.perform,bind_ok,pure_ok,Prod.mk.injEq] at performed
        obtain ⟨_,_,absent,_⟩ := performed
        cases absent
    · exact ih member

/-- While a cell holds a job's target, the target has been registered as it is
    since the job was given out. -/
theorem Reached.steady (reached : Reached scheduler log) {newer older : List Moment} {dispatch : Moment} {job : Job}
    (split : log = newer ++ dispatch :: older) (dispatched : dispatch.dispatched = some job) {cell : Cell}
    (found : scheduler.cells[job.identity.instanceKey]? = some cell) {component : String}
    (holds : cell.holds job component) :
    ∃ target, cell.targets[component]? = some target ∧ cell.identity = job.identity ∧
      target.probe ∈ job.request.targets ∧ Steady job.identity component target (newer ++ [dispatch]) := by
  induction reached generalizing newer cell with
  | start => simp at split
  | @step before after log action given reached known performed ih =>
    have sound := (Reached.step reached known performed).sound
    have listed : job ∈ jobsOf (⟨before,action,given,after⟩ :: log) := by
      rw [split,mem_jobsOf]
      exact ⟨dispatch,by simp,dispatched⟩
    obtain ⟨identity,_,target,here,probe⟩ := (sound.agrees job listed found).same holds
    refine ⟨target,here,identity.symm,probe,?_⟩
    cases newer with
    | nil =>
      obtain ⟨rfl,rfl⟩ := List.cons.inj split
      exact Steady.cons .nil found identity.symm here
    | cons moment newer =>
      obtain ⟨rfl,rfl⟩ := List.cons.inj split
      have earlier : job ∈ jobsOf (newer ++ dispatch :: older) := mem_jobsOf.mpr ⟨dispatch,by simp,dispatched⟩
      have taken := reached.sound.job job earlier
      obtain ⟨generation,number,current⟩ := Cell.holds_iff.mp holds
      have touches := reached.sound.touches known.mem performed found
      obtain ⟨old,present,stays⟩ := reached.sound.stays known.mem touches current
        ((taken.earlier number).le.trans taken.past)
      obtain ⟨before_target,kept,_,_,steady⟩ := ih rfl present ((stays.holds job).mp holds)
      cases (stays.target.symm.trans here).symm.trans kept
      exact steady.cons found identity.symm here
end

/-! ### Where an observation comes from -/

/-- The dispatch and the completion that an observation comes from: the job was
    given out for the identity, the response that completed it is valid and has the
    observation, the target is the same since the dispatch, and no job given out
    later has been completed for it since. -/
structure Provenance (identity : Identity) (component : String) (cached : CachedObservation) (log : List Moment) where
  newer : List Moment
  completion : Moment
  between : List Moment
  dispatch : Moment
  older : List Moment
  split : log = newer ++ completion :: (between ++ dispatch :: older)
  job : Job
  given : dispatch.dispatched = some job
  addressed : job.identity = identity
  started : dispatch.action = .dispatch cached.observedAtMillis
  response : Response
  millis : Nat
  completed : completion.action = .complete job (some response) millis
  released : job.id ∈ completion.before.inflight
  reported : List Observation
  valid : validateResponse job response = some reported
  whole : (reported.map Observation.component).Perm job.request.components
  observed : cached.observation ∈ reported ∧ cached.observation.component = component
  target : ScheduledTarget
  probed : target.probe ∈ job.request.targets ∧ target.probe.component = component
  running : target.runtimeDigest = cached.runtimeDigest
  steady : Steady identity component target (newer ++ completion :: (between ++ [dispatch]))
  last : ∀ moment ∈ newer, ∀ later response millis, moment.action = .complete later response millis →
    later.id ∈ moment.before.inflight → later.identity.instanceKey = identity.instanceKey →
    component ∈ later.request.components → ¬ job.id < later.id

section
variable {scheduler : Scheduler} {log : List Moment}

/-- One more moment, at which the target is as before and no later job for it completes. -/
def Provenance.extend {identity : Identity} {component : String} {cached : CachedObservation} (moment : Moment)
    (provenance : Provenance identity component cached log)
    (steady : Steady identity component provenance.target [moment])
    (last : ∀ later response millis, moment.action = .complete later response millis →
      later.id ∈ moment.before.inflight → later.identity.instanceKey = identity.instanceKey →
      component ∈ later.request.components → ¬ provenance.job.id < later.id) :
    Provenance identity component cached (moment :: log) :=
  { provenance with
    newer := moment :: provenance.newer
    split := congrArg (moment :: ·) provenance.split
    steady := by
      intro other member
      rcases List.mem_cons.mp member with rfl | member
      · exact steady other List.mem_cons_self
      · exact provenance.steady other member
    last := by
      intro other member
      rcases List.mem_cons.mp member with rfl | member
      · exact last
      · exact provenance.last other member }

variable {component : String} {cached : CachedObservation}

/-- An observation of a target that a call leaves alone keeps its provenance. -/
theorem Provenance.carried {identity : Identity}
    {before after : Cell} (provenance : Provenance identity component cached log) (moment : Moment)
    (holds : before.holds provenance.job component) (target : before.targets[component]? = some provenance.target)
    (stays : before.Stays after component) (found : moment.after.cells[identity.instanceKey]? = some after)
    (same : after.identity = identity)
    (last : ∀ later response millis, moment.action = .complete later response millis →
      later.id ∈ moment.before.inflight → later.identity.instanceKey = identity.instanceKey →
      component ∈ later.request.components → ¬ provenance.job.id < later.id) :
    ∃ next : Provenance identity component cached (moment :: log), after.holds next.job component ∧
      after.targets[component]? = some next.target := by
  have here : after.targets[component]? = some provenance.target := stays.target.trans target
  exact ⟨provenance.extend moment (Steady.cons .nil found same here) last,(stays.holds _).mpr holds,here⟩

/-- A later job for a target that an earlier job still stands for holds it too. -/
theorem Sound.holds_later {jobs : List Job} (sound : Sound scheduler jobs) {job later : Job} (known : job ∈ jobs)
    (given : later ∈ jobs) {cell : Cell} (found : scheduler.cells[later.identity.instanceKey]? = some cell)
    {component : String} (holds : cell.holds job component) (named : component ∈ later.request.components)
    (after : job.id < later.id) : cell.holds later component := by
  obtain ⟨generation,number,current⟩ := Cell.holds_iff.mp holds
  have taken := ((sound.job later given).covers component).mpr named
  exact (sound.agrees later given found).timely taken current (((sound.job job known).earlier number).trans after)

theorem Provenance.known {identity : Identity}
    (provenance : Provenance identity component cached log) : provenance.job ∈ jobsOf log := by
  obtain ⟨newer,completion,between,dispatch,older,rfl,job,given,_⟩ := provenance
  exact mem_jobsOf.mpr ⟨dispatch,by simp,given⟩

/-- Each observation of a cell has a provenance, whose job the cell still holds. -/
theorem Reached.backed (reached : Reached scheduler log) {identity : Identity} {component : String} {cell : Cell}
    {cached : CachedObservation} (found : scheduler.cells[identity.instanceKey]? = some cell)
    (same : cell.identity = identity) (observed : cell.observations[component]? = some cached) :
    ∃ provenance : Provenance identity component cached log, cell.holds provenance.job component ∧
      cell.targets[component]? = some provenance.target := by
  induction reached generalizing cell with
  | start => simp [Scheduler.default] at found
  | @step before after log action given reached known performed ih =>
    have sound := reached.sound
    have later := found
    have touches := sound.touches known.mem performed found
    generalize addressed : identity.instanceKey = key at touches
    cases touches with
    | untouched present idle =>
      obtain ⟨provenance,holds,target⟩ := ih (addressed ▸ present) same observed
      refine provenance.carried _ holds target (.refl cell component) later same ?_
      rintro later response millis rfl slot sameKey named newer
      have here : before.cells[later.identity.instanceKey]? = some cell := by
        rw [sameKey,addressed]
        exact present
      have held := sound.holds_later provenance.known known here holds named newer
      obtain ⟨_,generation,_⟩ := (sound.agrees later known here).same held
      exact idle later response millis rfl (sameKey.trans addressed)
        ⟨slot,cell,here,generation.symm,component,Std.ExtTreeMap.mem_keys.mpr held.1,held⟩
    | @registered _ _ nowMillis _ desired registers =>
      rcases registers with ⟨old,present,_,rfl⟩ | rfl
      · rw [Cell.edit_observations,BTreeMap.get_filter,Option.filter_eq_some_iff] at observed
        have unchanged : ¬ old.changed desired component := by simpa using observed.2
        have stays := Cell.stays_edit (before.sequence + 1) nowMillis unchanged
        obtain ⟨provenance,holds,target⟩ := ih (addressed ▸ present) (stays.identity.symm.trans same) observed.1
        exact provenance.carried _ holds target stays later same (by simp)
      · simp [Cell.fresh] at observed
    | @drained _ _ old _ present =>
      obtain ⟨provenance,holds,target⟩ := @ih old (addressed ▸ present) same observed
      exact provenance.carried _ holds target ⟨rfl,rfl,rfl⟩ later same (by simp)
    | @concluded job response nowMillis old _ present slot called =>
      have ready := sound.ready present
      obtain ⟨_,called',keeps,_,source⟩ := Cell.conclude_ok nowMillis (response.bind (validateResponse job))
        (fun component => (ready.numbered component).mp) (sound.job job known).distinct
      cases called.symm.trans called'
      have stays := keeps.stays component
      rcases source component cached observed with ⟨kept,other⟩ | ⟨holds,reported,valid,target,here,listed,named,running,started⟩
      · obtain ⟨provenance,holds,target⟩ := ih (addressed ▸ present) (stays.identity.symm.trans same) kept
        refine provenance.carried _ holds target stays later same ?_
        rintro later _ _ ⟨⟩ _ _ named newer
        exact other ⟨named,sound.holds_later provenance.known known present holds named newer⟩
      · obtain ⟨dispatch,member,dispatched⟩ := mem_jobsOf.mp (show job ∈ jobsOf log from known)
        obtain ⟨between,older,rfl⟩ := List.append_of_mem member
        obtain ⟨target',there,owner,probe,steady⟩ := reached.steady rfl dispatched present holds
        cases here.symm.trans there
        obtain ⟨response,rfl,valid⟩ := Option.bind_eq_some_iff.mp valid
        have mine : job.identity = identity := owner.symm.trans (stays.identity.symm.trans same)
        have target_here : cell.targets[component]? = some target := stays.target.trans here
        refine ⟨⟨[],_,between,dispatch,older,rfl,job,dispatched,mine,?_,response,nowMillis,rfl,slot,reported,valid,
          (validateResponse_ok valid).1,⟨listed,named⟩,target,⟨probe,ready.named component target here⟩,running.symm,?_,fun _ member => absurd member List.not_mem_nil⟩,
          (stays.holds job).mpr holds,target_here⟩
        · rw [started]
          exact reached.dispatched_at member dispatched
        · exact (mine ▸ steady).cons later same target_here

/-- What `observations` returns was reported for the target as it is registered
    now, by the last job completed for it, less than the time to live ago. -/
theorem observations_backed (reached : Reached scheduler log) {identity : Identity} {nowMillis : Nat} {component : String}
    {cached : CachedObservation} (observed : (scheduler.observations identity nowMillis)[component]? = some cached) :
    ∃ provenance : Provenance identity component cached log,
      (∃ cell, scheduler.cells[identity.instanceKey]? = some cell ∧ cell.identity = identity ∧
        cell.targets[component]? = some provenance.target) ∧
      cached.observedAtMillis ≤ nowMillis ∧ nowMillis < cached.observedAtMillis + observationTtlMillis := by
  rw [Scheduler.observations] at observed
  split at observed
  · rename_i cell present
    obtain ⟨found,same⟩ := Option.filter_eq_some_iff.mp present
    rw [BTreeMap.get_filter,Option.filter_eq_some_iff] at observed
    have same : cell.identity = identity := by simpa using same
    obtain ⟨started,young⟩ : cached.isFresh nowMillis := by simpa using observed.2
    obtain ⟨provenance,_,target⟩ := reached.backed found same observed.1
    exact ⟨provenance,⟨cell,found,same,target⟩,started,by omega⟩
  · simp at observed
end

/-- Two targets are observed, and one of them restarts. Latest move first. -/
def observedBeforeRestart : List (List Job → Action) :=
  [fun _ => .register sampleIdentity [sampleTarget "a" "replacement",sampleTarget "b" "runtime"] 3,
   fun jobs => match jobs with
    | job :: _ => .complete job (some (sampleResponse job)) 2
    | [] => .dispatch 2,
   fun _ => .dispatch 1,
   fun _ => .register sampleIdentity [sampleTarget "a" "runtime",sampleTarget "b" "runtime"] 0]

set_option maxRecDepth 100000 in
theorem observations_backed_observedBeforeRestart :
    ((follow observedBeforeRestart).1.observations sampleIdentity 4)["a"]? = none ∧
    ∃ cached, ((follow observedBeforeRestart).1.observations sampleIdentity 4)["b"]? = some cached ∧
      ∃ provenance : Provenance sampleIdentity "b" cached (follow observedBeforeRestart).2,
        (∃ cell, (follow observedBeforeRestart).1.cells[sampleIdentity.instanceKey]? = some cell ∧
          cell.identity = sampleIdentity ∧ cell.targets["b"]? = some provenance.target) ∧
        cached.observedAtMillis ≤ 4 ∧ 4 < cached.observedAtMillis + observationTtlMillis := by
  refine ⟨by decide +kernel,⟨⟨"b","rollout",.reachable,12,0,none⟩,"runtime",1⟩,?_⟩
  have observed : ((follow observedBeforeRestart).1.observations sampleIdentity 4)["b"]? =
      some ⟨⟨"b","rollout",.reachable,12,0,none⟩,"runtime",1⟩ := by decide +kernel
  exact ⟨observed,observations_backed (follow_reached observedBeforeRestart) observed⟩
end Proofstorm.Prober
