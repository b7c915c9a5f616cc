import Proofstorm.Readiness.Expired

/-!
Expiry against observing again. What is ready after cached checks have expired is what
would be ready if the whole cell were resolved again with each of them unknown, and a
status changes only where a check that it depends on has expired.
-/
namespace Proofstorm.Readiness
open Proofstorm.Core Validation Publication Plans Ascent

/-! ### What is read of one component -/

section
variable {plans : List ComponentPlanContract} {plan : ComponentPlanContract} {resources : ComponentObservationResources}
  {previous : List ComponentStatus} {down : List String} {stopped : Bool} {now : Int} {readings : ClusterReadings}
  {evidence : Evidence}

/-- What is observed of a component alone is what is read. -/
theorem stateOf_atomic (nodup : plan.applicableConditions.Nodup) {wanted : ComponentConditionType}
    (applicable : wanted ∈ plan.applicableConditions) {reading : Reading}
    (read : readingOf plan resources stopped wanted = some reading) :
    stateOf (observeAtomicConditions plan resources stopped now) wanted = reading.state := by
  have typed : types (observeAtomicConditions plan resources stopped now) =
      plan.applicableConditions.filter (· ≠ .componentReady) := types_atomic plan.applicableConditions
  have distinct : (types (observeAtomicConditions plan resources stopped now)).Nodup := typed ▸ nodup.filter _
  have listed : componentCondition wanted reading.state reading.reason reading.message now ∈
      observeAtomicConditions plan resources stopped now :=
    List.mem_filterMap.mpr ⟨wanted,applicable,Option.map_eq_some_iff.mpr ⟨reading,read,rfl⟩⟩
  have found : conditionOf (observeAtomicConditions plan resources stopped now) wanted =
      some (componentCondition wanted reading.state reading.reason reading.message now) :=
    (conditionOf_eq_some distinct).mpr ⟨listed,rfl⟩
  rw [stateOf,found]
  rfl

/-- Nothing that is read says that the component was stopped on purpose. -/
theorem readingOf_reason (readings : ClusterReadings) {protocol : ComponentPlanContract → Reading}
    (unstopped : (protocol plan).reason ≠ .intentionallyStopped) {wanted : ComponentConditionType} {reading : Reading}
    (read : readingOf plan (readings.resources protocol) false wanted = some reading) :
    reading.reason ≠ .intentionallyStopped := by
  obtain ⟨workload,storage,credential,service⟩ := readings.unstopped plan
  cases wanted with
  | componentReady => cases read
  | workloadReady => exact Option.some.inj read ▸ workload
  | protocolReady => exact Option.some.inj read ▸ unstopped
  | storageReady => exact Option.some.inj read ▸ storage
  | credentialsReady => exact Option.some.inj read ▸ credential
  | serviceReady => exact Option.some.inj read ▸ service
  | dependenciesReady => exact Option.some.inj read ▸ fun contrary => by cases contrary
  | experimentControllable => exact Option.some.inj read ▸ fun contrary => by cases contrary

theorem protocolObservation_reason (observation : Option ProbeObservation) :
    (protocolObservation observation).reason ≠ .intentionallyStopped := by
  unfold protocolObservation
  split
  · exact fun contrary => by cases contrary
  · split_ifs <;> exact fun contrary => by cases contrary

theorem finishStatus_reason {status : ComponentStatus} {condition : ComponentCondition}
    (listed : condition ∈ (finishStatus previous status).conditions) :
    ∃ same ∈ status.conditions, same.reason = condition.reason := by
  unfold finishStatus ComponentStatus.deriveReady at listed
  split at listed
  · exact preserve_reason listed
  · exact ⟨condition,listed,rfl⟩

theorem settledBy_reason {status : ComponentStatus} {state : ComponentConditionState} (contracted : Contracted plan)
    (typed : types status.conditions = plan.applicableConditions) (running : down.contains plan.componentId = false)
    {condition : ComponentCondition} (listed : condition ∈ (settledBy down now plan state status).conditions)
    (marked : condition.reason = .intentionallyStopped) :
    ∃ same ∈ status.conditions, same.reason = .intentionallyStopped := by
  cases dependent : plan.dependent with
  | false =>
    rw [settledBy_independent dependent] at listed
    exact ⟨condition,listed,marked⟩
  | true =>
    rw [settledBy_map down now state contracted typed dependent] at listed
    obtain ⟨original,there,rfl⟩ := List.mem_map.mp listed
    split_ifs at marked
    · rw [readyOf,running] at marked
      exact absurd marked (aggregatedCondition_reason _ _ _)
    · unfold dependenciesCondition componentCondition at marked
      split_ifs at marked
    · exact ⟨original,there,marked⟩

theorem observeComponent_reason (contracted : Contracted plan) {protocol : ComponentPlanContract → Reading}
    (unstopped : (protocol plan).reason ≠ .intentionallyStopped) {condition : ComponentCondition}
    (listed : condition ∈ (observeComponent plan (readings.resources protocol) previous false now).conditions) :
    condition.reason ≠ .intentionallyStopped := by
  have new : ∀ condition ∈ dedupConditions (sortConditions (aggregateConditions plan.conditionAggregation false now
      (observeAtomicConditions plan (readings.resources protocol) false now))),
      condition.reason ≠ .intentionallyStopped := by
    intro condition member
    obtain atomic | ⟨state,rfl⟩ := mem_aggregated contracted member
    · obtain ⟨conditionType,_,read⟩ := List.mem_filterMap.mp atomic
      obtain ⟨reading,known,rfl⟩ := Option.map_eq_some_iff.mp read
      exact readingOf_reason readings unstopped known
    · exact aggregatedCondition_reason _ _ _
  unfold observeComponent ComponentStatus.deriveReady at listed
  dsimp only at listed
  split at listed
  · obtain ⟨same,there,reason⟩ := preserve_reason listed
    exact reason ▸ new same there
  · exact new condition listed

/-- A component is marked as stopped on purpose only if it is. -/
theorem stopped_of_marked (contracted : Contracted plan) {protocol : ComponentPlanContract → Reading}
    (unstopped : (protocol plan).reason ≠ .intentionallyStopped) {condition : ComponentCondition} {pairs : Pairs}
    (listed : condition ∈ (finalOf previous down now pairs (plan,observeComponent plan (readings.resources protocol)
      previous (down.contains plan.componentId) now)).conditions)
    (marked : condition.reason = .intentionallyStopped) : down.contains plan.componentId = true := by
  by_contra running
  rw [Bool.not_eq_true] at running
  obtain ⟨settled,there,reason⟩ := finishStatus_reason listed
  have typed := (fresh_observed (readings.resources protocol) previous (down.contains plan.componentId) now contracted).types
  obtain ⟨observed,alone,reason'⟩ := settledBy_reason contracted typed running there (reason.trans marked)
  rw [running] at alone
  exact observeComponent_reason contracted unstopped alone reason'

/-! ### The statuses of an observation -/

/-- The checks that were current when a cell was observed. -/
def checkedAt (evidence : Evidence) (observedAt : Int) (plan : ComponentPlanContract) : Option ProbeObservation :=
  currentObservation plan evidence observedAt

/-- The components of a cell as each is observed by itself, with the checks given. -/
def checkedPairs (plans : List ComponentPlanContract) (readings : ClusterReadings)
    (checks : ComponentPlanContract → Option ProbeObservation) (previous : List ComponentStatus) (down : List String)
    (now : Int) : Pairs :=
  observedPairs plans (readings.resources fun plan => protocolObservation (checks plan)) previous down now

/-- The status of a component with the time of its check. -/
def checkedStatus (plans : List ComponentPlanContract) (readings : ClusterReadings)
    (checks : ComponentPlanContract → Option ProbeObservation) (previous : List ComponentStatus) (down : List String)
    (now : Int) (plan : ComponentPlanContract) : ProbedStatus :=
  ⟨finalOf previous down now (checkedPairs plans readings checks previous down now)
      (plan,observeComponent plan (readings.resources fun plan => protocolObservation (checks plan)) previous
        (down.contains plan.componentId) now),
    (checks plan).map ProbeObservation.timing⟩

variable {checks : ComponentPlanContract → Option ProbeObservation}

/-- What is forced of a cell's components. -/
def forcedReady (plans : List ComponentPlanContract) (readings : ClusterReadings)
    (checks : ComponentPlanContract → Option ProbeObservation) (previous : List ComponentStatus) (down : List String)
    (now : Int) (id : String) : ComponentConditionState :=
  readiness (networkOf (checkedPairs plans readings checks previous down now))
    (forcedOf (checkedPairs plans readings checks previous down now)) id

section
variable (contracted : ∀ plan ∈ plans, Contracted plan)
  (distinct : (plans.map ComponentPlanContract.componentId).Nodup)
include contracted distinct

theorem observed_final :
    observeComponentStatuses plans resources previous down now = plans.map fun plan =>
      finalOf previous down now (observedPairs plans resources previous down now)
        (plan,observeComponent plan resources previous (down.contains plan.componentId) now) := by
  rw [observe_eq,resolved_final previous down now (fresh_pairs contracted) (observed_ids resources previous down now distinct)]
  conv_lhs => rw [observedPairs]
  rw [List.map_map]
  rfl

theorem probed_eq :
    observeProbedStatuses plans readings evidence previous down now =
      plans.map (checkedStatus plans readings (checkedAt evidence now) previous down now) := by
  rw [observeProbedStatuses,observed_final contracted distinct,List.zipWith_map_right,List.zipWith_self]
  rfl
end

theorem workloadReady_required (installed : Installed plan) : .workloadReady ∈ readyConditions plan := by
  refine List.mem_filter.mpr ⟨by decide,List.contains_iff_mem.mpr ?_⟩
  obtain ⟨storage,credentials,service,dependencies,shape⟩ := applicableConditions_cases plan.backendId
  rw [installed.1,shape]
  clear shape
  revert storage credentials service dependencies
  decide

/-- What the statuses of an observation are. -/
theorem checked_started (readings : ClusterReadings) (checks : ComponentPlanContract → Option ProbeObservation)
    (previous : List ComponentStatus) (down : List String) (now : Int) (installed : ∀ plan ∈ plans, Installed plan)
    (distinct : (plans.map ComponentPlanContract.componentId).Nodup) :
    Started plans (checkedStatus plans readings checks previous down now) ∧ ∀ plan ∈ plans,
      readyState (checkedStatus plans readings checks previous down now plan).toComponentStatus =
        forcedReady plans readings checks previous down now plan.componentId := by
  have fresh : ∀ pair ∈ checkedPairs plans readings checks previous down now, Fresh pair.1 pair.2 :=
    fresh_pairs fun plan member => (installed plan member).contracted
  have apart : ((checkedPairs plans readings checks previous down now).map fun pair => pair.1.componentId).Nodup :=
    observed_ids _ previous down now distinct
  have pair : ∀ plan ∈ plans, (plan,observeComponent plan (readings.resources fun plan => protocolObservation (checks plan))
      previous (down.contains plan.componentId) now) ∈ checkedPairs plans readings checks previous down now :=
    fun plan member => List.mem_map_of_mem member
  have each := fun plan (member : plan ∈ plans) => finalOf_whole previous down now fresh apart (pair plan member)
  refine ⟨⟨installed,distinct,fun plan member => (each plan member).1,fun plan member stopped => ?_⟩,
    fun plan member => (each plan member).2.2⟩
  obtain ⟨whole,others,_⟩ := each plan member
  obtain ⟨condition,listed,marked⟩ := List.any_eq_true.mp stopped
  have contracted := (installed plan member).contracted
  have stopped := stopped_of_marked contracted (protocolObservation_reason _) listed (beq_iff_eq.mp marked)
  have required := workloadReady_required (installed plan member)
  have applicable := (mem_readyConditions required).1
  intro ready
  refine not_ready_of_required required ?_ (whole.ready.symm.trans ready)
  rw [others _ (by decide) (by decide),
    (observeComponent_spec _ previous _ now contracted).2.1 _ applicable (by decide),stopped,
    stateOf_atomic contracted.nodup applicable rfl]
  decide

/-! ### Observing again with what has expired unknown -/

/-- The checks that are still fresh. -/
def stillFresh (checks : ComponentPlanContract → Option ProbeObservation) (later : Int) (plan : ComponentPlanContract) :
    Option ProbeObservation :=
  (checks plan).filter fun observation => observation.timing.isFresh later

variable {again : List ComponentStatus} {later : Int}

theorem stillFresh_of_fresh (fresh : ((checks plan).map ProbeObservation.timing).any (·.isFresh later) = true) :
    stillFresh checks later plan = checks plan := by
  rw [stillFresh]
  cases known : checks plan with
  | none => rfl
  | some observation =>
    rw [known] at fresh
    exact Option.filter_some_pos fresh

theorem stillFresh_of_stale (stale : ((checks plan).map ProbeObservation.timing).any (·.isFresh later) = false) :
    stillFresh checks later plan = none := by
  rw [stillFresh]
  cases known : checks plan with
  | none => rfl
  | some observation =>
    rw [known] at stale
    exact Option.filter_some_neg stale

theorem readingOf_isSome (plan : ComponentPlanContract) (resources : ComponentObservationResources) (stopped : Bool)
    {wanted : ComponentConditionType} (unready : wanted ≠ .componentReady) :
    ∃ reading, readingOf plan resources stopped wanted = some reading := by
  cases wanted with
  | componentReady => exact absurd rfl unready
  | workloadReady => cases stopped <;> exact ⟨_,rfl⟩
  | protocolReady => cases stopped <;> exact ⟨_,rfl⟩
  | _ => exact ⟨_,rfl⟩

/-- An expired check leaves its component's protocol unknown, and nothing else changes. -/
theorem stillFresh_states (contracted : Contracted plan) {wanted : ComponentConditionType}
    (applicable : wanted ∈ plan.applicableConditions) (unready : wanted ≠ .componentReady) (before after : Int) :
    stateOf (observeAtomicConditions plan (readings.resources fun plan => protocolObservation (stillFresh checks later plan))
        stopped after) wanted =
      if wanted = .protocolReady ∧ stopped = false ∧
          ((checks plan).map ProbeObservation.timing).any (·.isFresh later) = false then .unknown
      else stateOf (observeAtomicConditions plan (readings.resources fun plan => protocolObservation (checks plan))
        stopped before) wanted := by
  by_cases expired : wanted = .protocolReady ∧ stopped = false ∧
      ((checks plan).map ProbeObservation.timing).any (·.isFresh later) = false
  · rw [if_pos expired]
    obtain ⟨rfl,rfl,stale⟩ := expired
    rw [stateOf_atomic contracted.nodup applicable rfl]
    change (protocolObservation (stillFresh checks later plan)).state = .unknown
    rw [stillFresh_of_stale stale]
    rfl
  · rw [if_neg expired]
    have same : readingOf plan (readings.resources fun plan => protocolObservation (stillFresh checks later plan)) stopped
        wanted = readingOf plan (readings.resources fun plan => protocolObservation (checks plan)) stopped wanted := by
      cases wanted with
      | protocolReady =>
        cases stopped with
        | true => rfl
        | false =>
          have fresh : ((checks plan).map ProbeObservation.timing).any (·.isFresh later) = true := by
            by_contra old
            exact expired ⟨rfl,rfl,Bool.eq_false_iff.mpr old⟩
          change some (protocolObservation (stillFresh checks later plan)) = some (protocolObservation (checks plan))
          rw [stillFresh_of_fresh fresh]
      | _ => rfl
    obtain ⟨reading,read⟩ :=
      readingOf_isSome plan (readings.resources fun plan => protocolObservation (checks plan)) stopped unready
    rw [stateOf_atomic contracted.nodup applicable read,stateOf_atomic contracted.nodup applicable (same.trans read)]

/-- The states that a component is observed to be in by itself. -/
def atomicOf (readings : ClusterReadings) (checks : ComponentPlanContract → Option ProbeObservation) (down : List String)
    (now : Int) (plan : ComponentPlanContract) : ComponentConditionType → ComponentConditionState :=
  stateOf (observeAtomicConditions plan (readings.resources fun plan => protocolObservation (checks plan))
    (down.contains plan.componentId) now)

theorem checked_node (installed : ∀ plan ∈ plans, Installed plan)
    (distinct : (plans.map ComponentPlanContract.componentId).Nodup) (member : plan ∈ plans) :
    networkOf (checkedPairs plans readings checks previous down now) plan.componentId =
      some (nodeOf plan (atomicOf readings checks down now plan)) := by
  have apart : ((checkedPairs plans readings checks previous down now).map fun pair => pair.1.componentId).Nodup :=
    observed_ids _ previous down now distinct
  have pair : (plan,observeComponent plan (readings.resources fun plan => protocolObservation (checks plan)) previous
      (down.contains plan.componentId) now) ∈ checkedPairs plans readings checks previous down now :=
    List.mem_map_of_mem member
  rw [networkOf_of_mem apart pair]
  congr 1
  refine nodeOf_congr fun wanted required _ => ?_
  obtain ⟨applicable,unready⟩ := mem_readyConditions required
  exact (observeComponent_spec _ previous _ now (installed plan member).contracted).2.1 wanted applicable unready

theorem checked_away {id : String} (away : ∀ plan ∈ plans, plan.componentId ≠ id) :
    networkOf (checkedPairs plans readings checks previous down now) id = none := by
  refine lookup_of_away _ fun inside => ?_
  obtain ⟨pair,there,rfl⟩ := List.mem_map.mp (List.mem_toFinset.mp inside)
  obtain ⟨plan,member,rfl⟩ := List.mem_map.mp there
  exact away plan member rfl

theorem checked_inside (id : String) (known : networkOf (checkedPairs plans readings checks previous down now) id ≠ none) :
    id ∈ planIds plans := by
  by_contra away
  exact known (checked_away fun plan member same => away (mem_planIds.mpr ⟨plan,member,same⟩))

theorem nodeOf_ready_mono {states others : ComponentConditionType → ComponentConditionState}
    (below : ∀ wanted ∈ readyConditions plan, states wanted ≤ others wanted) (dependencies : ComponentConditionState) :
    (nodeOf plan states).ready dependencies ≤ (nodeOf plan others).ready dependencies := by
  have up : ∀ state ∈ (nodeOf plan states).observed, ∃ other ∈ (nodeOf plan others).observed, state ≤ other := by
    intro state member
    obtain ⟨wanted,listed,rfl⟩ := List.mem_map.mp (List.mem_toFinset.mp member)
    exact ⟨_,List.mem_toFinset.mpr (List.mem_map_of_mem listed),below wanted (List.mem_of_mem_filter listed)⟩
  have down : ∀ other ∈ (nodeOf plan others).observed, ∃ state ∈ (nodeOf plan states).observed, state ≤ other := by
    intro other member
    obtain ⟨wanted,listed,rfl⟩ := List.mem_map.mp (List.mem_toFinset.mp member)
    exact ⟨_,List.mem_toFinset.mpr (List.mem_map_of_mem listed),below wanted (List.mem_of_mem_filter listed)⟩
  cases dependent : plan.dependent with
  | false =>
    simp only [Node.ready,nodeOf,dependent,Bool.false_eq_true,if_false]
    exact conjunction_mono up down
  | true =>
    simp only [Node.ready,nodeOf,dependent,if_true]
    refine conjunction_mono (fun state member => ?_) (fun other member => ?_)
    · obtain rfl | inside := Finset.mem_insert.mp member
      · exact ⟨_,Finset.mem_insert_self _ _,le_rfl⟩
      · obtain ⟨other,there,below⟩ := up state inside
        exact ⟨other,Finset.mem_insert_of_mem there,below⟩
    · obtain rfl | inside := Finset.mem_insert.mp member
      · exact ⟨_,Finset.mem_insert_self _ _,le_rfl⟩
      · obtain ⟨state,there,below⟩ := down other inside
        exact ⟨state,Finset.mem_insert_of_mem there,below⟩

/-- Less is known with what has expired unknown. -/
theorem checked_weaker (readings : ClusterReadings) (checks : ComponentPlanContract → Option ProbeObservation)
    (previous again : List ComponentStatus) (down : List String) (before later after : Int)
    (installed : ∀ plan ∈ plans, Installed plan) (distinct : (plans.map ComponentPlanContract.componentId).Nodup) :
    Weaker (networkOf (checkedPairs plans readings (stillFresh checks later) again down after))
      (networkOf (checkedPairs plans readings checks previous down before)) := by
  refine ⟨fun id => ?_,fun dependencies id => ?_⟩
  · by_cases known : ∃ plan ∈ plans, plan.componentId = id
    · obtain ⟨plan,member,rfl⟩ := known
      rw [checked_node installed distinct member,checked_node installed distinct member]
      rfl
    · have away : ∀ plan ∈ plans, plan.componentId ≠ id := fun plan member same => known ⟨plan,member,same⟩
      rw [checked_away away,checked_away away]
  · by_cases known : ∃ plan ∈ plans, plan.componentId = id
    · obtain ⟨plan,member,rfl⟩ := known
      rw [readiness,readiness,checked_node installed distinct member,checked_node installed distinct member]
      refine nodeOf_ready_mono (fun wanted required => ?_) _
      obtain ⟨applicable,unready⟩ := mem_readyConditions required
      rw [atomicOf,stillFresh_states (installed plan member).contracted applicable unready before after]
      split_ifs
      · exact bot_le
      · exact le_rfl
    · have away : ∀ plan ∈ plans, plan.componentId ≠ id := fun plan member same => known ⟨plan,member,same⟩
      rw [readiness,checked_away away]
      exact bot_le

/-! ### Agreement -/

section
variable {roots visited : List String} {after : ComponentPlanContract → ProbedStatus} {before : Int}

theorem checked_ids : idsOf (checkedPairs plans readings checks previous down now) = planIds plans := by
  rw [idsOf,checkedPairs,observedPairs,List.map_map]
  rfl

theorem forcedReady_eq : forcedReady plans readings checks previous down now =
    readiness (networkOf (checkedPairs plans readings checks previous down now))
      (forced (networkOf (checkedPairs plans readings checks previous down now)) (planIds plans)) := by
  rw [← checked_ids]
  rfl

section
variable (installed : ∀ plan ∈ plans, Installed plan) (distinct : (plans.map ComponentPlanContract.componentId).Nodup)
include installed distinct

/-- A stale component is not ready with what has expired unknown. -/
theorem stale_not_forced (member : plan ∈ plans)
    (stale : Stale later plan (checkedStatus plans readings checks previous down before plan)) (now : Int) :
    forcedReady plans readings (stillFresh checks later) again down now plan.componentId ≠ .true := by
  obtain ⟨probed,_,old⟩ := stale
  have contracted := (installed plan member).contracted
  have required := protocolReady_required ((installed plan member).probed.mp probed)
  obtain ⟨applicable,unready⟩ := mem_readyConditions required
  rw [forcedReady,readiness,checked_node installed distinct member]
  intro holds
  have observed := (Node.observed_of_ready holds).1 (atomicOf readings (stillFresh checks later) down now plan .protocolReady)
    (List.mem_toFinset.mpr (List.mem_map_of_mem (List.mem_filter.mpr ⟨required,by decide⟩)))
  rw [atomicOf,stillFresh_states contracted applicable unready before now] at observed
  split_ifs at observed with expired
  · cases stopped : down.contains plan.componentId with
    | true =>
      rw [stopped,stateOf_atomic contracted.nodup applicable rfl] at observed
      cases observed
    | false => exact expired ⟨rfl,stopped,old⟩

/-- A fresh component is ready by the same. -/
theorem fresh_node (member : plan ∈ plans)
    (running : (checkedStatus plans readings checks previous down before plan).stopped = false)
    (fresh : ¬ Stale later plan (checkedStatus plans readings checks previous down before plan)) (now : Int) :
    networkOf (checkedPairs plans readings (stillFresh checks later) again down now) plan.componentId =
      networkOf (checkedPairs plans readings checks previous down before) plan.componentId := by
  rw [checked_node installed distinct member,checked_node installed distinct member]
  congr 1
  refine nodeOf_congr fun wanted required _ => ?_
  obtain ⟨applicable,unready⟩ := mem_readyConditions required
  rw [atomicOf,stillFresh_states (installed plan member).contracted applicable unready before now]
  refine if_neg fun expired => fresh ⟨?_,running,expired.2.2⟩
  exact (installed plan member).probed.mpr (expired.1 ▸ applicable)

theorem checked_targets (member : plan ∈ plans) {targets : Finset String} :
    (networkOf (checkedPairs plans readings checks previous down now) plan.componentId).bind Node.targets = some targets ↔
      plan.dependent = true ∧ targets = (plan.relevantLinks.map LinkSpec.to).toFinset := by
  rw [checked_node installed distinct member,Option.bind_some,nodeOf]
  cases plan.dependent with
  | true =>
    simp only [if_true,true_and,Option.some.injEq]
    exact eq_comm
  | false => simp

/-- Whatever a ready component depends on is ready. -/
theorem forcedReady_needs {id other : String}
    (path : Relation.ReflTransGen (Needs plans) id other)
    (holds : forcedReady plans readings checks previous down now id = .true) :
    forcedReady plans readings checks previous down now other = .true := by
  induction path with
  | refl => exact holds
  | tail _ need ih =>
    obtain ⟨plan,member,rfl,dependent,link,carried,rfl⟩ := need
    rw [forcedReady_eq] at ih ⊢
    refine ready_targets checked_inside ((checked_targets installed distinct member).mpr ⟨dependent,rfl⟩) ih link.to ?_
    exact List.mem_toFinset.mpr (List.mem_map_of_mem carried)

/-- What is forced with the expired unknown was not touched by expiry. -/
theorem untouched_of_forced (known : ∀ id ∈ roots, ∃ plan ∈ plans, plan.componentId = id ∧
      Stale later plan (checkedStatus plans readings checks previous down before plan))
    (expiring : Expiring plans (checkedStatus plans readings checks previous down before) after roots [] visited)
    (member : plan ∈ plans)
    (holds : forcedReady plans readings (stillFresh checks later) again down now plan.componentId = .true) :
    after plan = checkedStatus plans readings checks previous down before plan := by
  refine (expiring.same plan member).resolve_right fun touched => ?_
  obtain ⟨root,rooted,path⟩ := expiring.reaches plan.componentId touched
  obtain ⟨other,there,rfl,stale⟩ := known root rooted
  exact stale_not_forced installed distinct there stale now (forcedReady_needs installed distinct path holds)

/-- A component is ready after expiry exactly when it would be with the expired unknown. -/
theorem ready_after_iff (rooted : ∀ plan ∈ plans, plan.componentId ∈ roots ↔
      Stale later plan (checkedStatus plans readings checks previous down before plan))
    (known : ∀ id ∈ roots, ∃ plan ∈ plans, plan.componentId = id ∧
      Stale later plan (checkedStatus plans readings checks previous down before plan))
    (expiring : Expiring plans (checkedStatus plans readings checks previous down before) after roots [] visited)
    (member : plan ∈ plans) (again : List ComponentStatus) (now : Int) :
    readyState (after plan).toComponentStatus = .true ↔
      forcedReady plans readings (stillFresh checks later) again down now plan.componentId = .true := by
  obtain ⟨started,ready⟩ := checked_started readings checks previous down before installed distinct
  have weaker := checked_weaker readings checks previous again down before later now installed distinct
  have start : ∀ plan ∈ plans, readyState (after plan).toComponentStatus = .true →
      forcedReady plans readings checks previous down before plan.componentId = .true := fun plan member holds =>
    (ready plan member).symm.trans ((expiring.lower plan member).states .componentReady holds)
  constructor
  · intro holds
    have held := start plan member holds
    rw [forcedReady_eq] at held ⊢
    refine weaker.holds checked_inside checked_inside (fun id => ∃ plan ∈ plans, plan.componentId = id ∧
      readyState (after plan).toComponentStatus = .true) ?_ ?_ ⟨plan,member,rfl,holds⟩ held
    · rintro _ ⟨plan,member,rfl,holds⟩
      have running : (checkedStatus plans readings checks previous down before plan).stopped = false := by
        rw [← (expiring.lower plan member).stopped]
        exact Bool.eq_false_iff.mpr fun stopped => expiring.idle started member stopped holds
      refine fresh_node installed distinct member running (fun stale => ?_) now
      refine expiring.unready plan.componentId (expiring.rooted _ ((rooted plan member).mpr stale)) ?_
      rw [readyIn_of_plan distinct expiring.named member]
      exact holds
    · rintro _ ⟨plan,member,rfl,holds⟩ targets waiting target there forced
      obtain ⟨dependent,rfl⟩ := (checked_targets installed distinct member).mp waiting
      obtain ⟨link,carried,rfl⟩ := List.mem_map.mp (List.mem_toFinset.mp there)
      rw [← forcedReady_eq] at forced
      by_cases known : ∃ other ∈ plans, other.componentId = link.to
      · obtain ⟨other,listed,is⟩ := known
        refine ⟨other,listed,is,?_⟩
        rw [← is,← ready other listed] at forced
        obtain same | absurdly | seen := expiring.same other listed
        · rw [same]
          exact forced
        · exact absurd absurdly List.not_mem_nil
        · exact absurd holds (expiring.closed _ seen plan member dependent ⟨link,carried,is.symm⟩)
      · rw [forcedReady,readiness,checked_away fun other listed same => known ⟨other,listed,same⟩] at forced
        cases forced
  · intro holds
    rw [untouched_of_forced installed distinct known expiring member holds,ready plan member]
    rw [forcedReady_eq] at holds ⊢
    obtain unknown | same := weaker.forced_ready checked_inside plan.componentId
    · rw [unknown] at holds
      cases holds
    · exact same ▸ holds
end

end

end

section
variable {plans : List ComponentPlanContract}

/-- A component is listed as ready if its status says so. -/
theorem ready_listed {β : Type} (view : β → ComponentStatus) {current : ComponentPlanContract → β}
    (whole : ∀ plan ∈ plans, Whole plan (view (current plan))) (id : String) :
    (∃ status ∈ plans.map current, (view status).id = id ∧ (view status).ready = true) ↔
      ∃ plan ∈ plans, plan.componentId = id ∧ readyState (view (current plan)) = .true := by
  constructor
  · rintro ⟨status,listed,named,ready⟩
    obtain ⟨plan,member,rfl⟩ := List.mem_map.mp listed
    exact ⟨plan,member,(whole plan member).id.symm.trans named,(whole plan member).marked.mp ready⟩
  · rintro ⟨plan,member,named,ready⟩
    exact ⟨_,List.mem_map_of_mem member,(whole plan member).id.trans named,(whole plan member).marked.mpr ready⟩

/-- With one status a plan, a status is that of the plan it names. -/
theorem listed_eq {current : ComponentPlanContract → ProbedStatus}
    (distinct : (plans.map ComponentPlanContract.componentId).Nodup)
    (named : ∀ plan ∈ plans, (current plan).id = plan.componentId) {plan : ComponentPlanContract} (member : plan ∈ plans)
    {status : ProbedStatus} (listed : status ∈ plans.map current) (is : status.id = plan.componentId) :
    status = current plan := by
  obtain ⟨other,there,rfl⟩ := List.mem_map.mp listed
  rw [List.inj_on_of_nodup_map distinct there member ((named other there).symm.trans is)]

/-- No condition of a lower status is true that was not. -/
theorem Lower.conditions {plan : ComponentPlanContract} {before after : ProbedStatus} (lower : Lower before after)
    (contracted : Contracted plan) (first : Whole plan before.toComponentStatus) (second : Whole plan after.toComponentStatus) :
    ∀ condition ∈ after.conditions, condition.state = .true → ∃ earlier ∈ before.conditions,
      earlier.conditionType = condition.conditionType ∧ earlier.state = .true := by
  intro condition listed holds
  have found : conditionOf after.conditions condition.conditionType = some condition :=
    (conditionOf_eq_some (second.types ▸ contracted.nodup)).mpr ⟨listed,rfl⟩
  have held : stateOf after.conditions condition.conditionType = .true := by
    rw [stateOf,found]
    exact holds
  have earlier := lower.states _ held
  rw [stateOf] at earlier
  cases known : conditionOf before.conditions condition.conditionType with
  | none => rw [known] at earlier; cases earlier
  | some same =>
    rw [known] at earlier
    obtain ⟨member,typed⟩ := (conditionOf_eq_some (first.types ▸ contracted.nodup)).mp known
    exact ⟨same,member,typed,earlier⟩

end

/-- How expiry agrees with observing again. -/
structure ExpiryAgrees (plans : List ComponentPlanContract) (readings : ClusterReadings) (evidence : Evidence)
    (previous : List ComponentStatus) (down : List String) (observedAt now : Int) : Prop where
  /-- What is ready is what would be, with each expired check unknown. -/
  ready : ∀ again id, (∃ status ∈ expireProtocolStatus plans
      (observeProbedStatuses plans readings evidence previous down observedAt) now, status.id = id ∧ status.ready = true) ↔
    ∃ status ∈ observeComponentStatuses plans (readings.resources fun plan =>
      protocolObservation (stillFresh (checkedAt evidence observedAt) now plan)) again down now,
      status.id = id ∧ status.ready = true
  /-- No condition becomes true. -/
  lowers : List.Forall₂ (fun before after => after.id = before.id ∧ ∀ condition ∈ after.conditions,
      condition.state = .true → ∃ earlier ∈ before.conditions, earlier.conditionType = condition.conditionType ∧
        earlier.state = .true)
    (observeProbedStatuses plans readings evidence previous down observedAt)
    (expireProtocolStatus plans (observeProbedStatuses plans readings evidence previous down observedAt) now)
  /-- What is left ready has a fresh check, and depends on what is ready. -/
  rests : ∀ plan ∈ plans, ∀ status ∈ expireProtocolStatus plans
      (observeProbedStatuses plans readings evidence previous down observedAt) now,
    status.id = plan.componentId → status.ready = true →
      ((protocolProbeOf plan).isSome = true → status.protocolObservation.any (·.isFresh now) = true) ∧
      (.dependenciesReady ∈ plan.applicableConditions → ∀ link ∈ plan.relevantLinks, ∃ target ∈ expireProtocolStatus plans
        (observeProbedStatuses plans readings evidence previous down observedAt) now,
        target.id = link.to ∧ target.ready = true)
  /-- What depends on nothing that has expired is unchanged. -/
  unchanged : ∀ plan ∈ plans, ∀ status ∈ observeProbedStatuses plans readings evidence previous down observedAt,
    status.id = plan.componentId →
    (∀ other ∈ plans, Relation.ReflTransGen (Needs plans) plan.componentId other.componentId →
      ∀ needed ∈ observeProbedStatuses plans readings evidence previous down observedAt,
        needed.id = other.componentId → ¬ Stale now other needed) →
    status ∈ expireProtocolStatus plans (observeProbedStatuses plans readings evidence previous down observedAt) now

/-- Expiring cached evidence agrees with observing again. -/
theorem expiry_agrees (plans : List ComponentPlanContract) (readings : ClusterReadings) (evidence : Evidence)
    (previous : List ComponentStatus) (down : List String) (observedAt now : Int)
    (installed : ∀ plan ∈ plans, Installed plan) (distinct : (plans.map ComponentPlanContract.componentId).Nodup) :
    ExpiryAgrees plans readings evidence previous down observedAt now := by
  have contracted : ∀ plan ∈ plans, Contracted plan := fun plan member => (installed plan member).contracted
  obtain ⟨started,_⟩ := checked_started readings (checkedAt evidence observedAt) previous down observedAt installed distinct
  obtain ⟨after,roots,visited,ended,rooted,known,expiring⟩ := expireProtocolStatus_end started now
  have observed : observeProbedStatuses plans readings evidence previous down observedAt =
      plans.map (checkedStatus plans readings (checkedAt evidence observedAt) previous down observedAt) :=
    probed_eq contracted distinct
  have agrees := fun plan (member : plan ∈ plans) again =>
    ready_after_iff installed distinct rooted known expiring member again now
  rw [← observed] at ended
  refine ⟨fun again id => ?_,?_,fun plan member status listed named ready => ?_,
    fun plan member status listed named fresh => ?_⟩
  · obtain ⟨renewed,forced⟩ :=
      checked_started readings (stillFresh (checkedAt evidence observedAt) now) again down now installed distinct
    rw [ended,ready_listed ProbedStatus.toComponentStatus expiring.whole,observed_final contracted distinct]
    refine Iff.trans ?_ (ready_listed (fun status => status) (fun plan member => renewed.whole plan member) id).symm
    refine exists_congr fun plan => and_congr_right fun member => and_congr_right fun _ => ?_
    rw [agrees plan member again,← forced plan member]
  · rw [ended,observed,List.forall₂_map_left_iff,List.forall₂_map_right_iff,List.forall₂_same]
    intro plan member
    have before := started.whole plan member
    have now_whole := expiring.whole plan member
    exact ⟨now_whole.id.trans before.id.symm,(expiring.lower plan member).conditions (contracted plan member) before now_whole⟩
  · rw [ended] at listed ⊢
    obtain rfl := listed_eq distinct expiring.named member listed named
    have holds := (expiring.whole plan member).marked.mp ready
    refine ⟨fun probed => ?_,fun applicable link carried => ?_⟩
    · by_contra old
      refine expiring.unready plan.componentId (expiring.rooted _ ((rooted plan member).mpr ⟨probed,?_,?_⟩)) ?_
      · rw [← (expiring.lower plan member).stopped]
        exact Bool.eq_false_iff.mpr fun stopped => expiring.idle started member stopped holds
      · rw [← (expiring.lower plan member).timing]
        exact Bool.eq_false_iff.mpr old
      · rw [readyIn_of_plan distinct expiring.named member]
        exact holds
    · have need : Needs plans plan.componentId link.to :=
        ⟨plan,member,rfl,dependent_iff.mpr applicable,link,carried,rfl⟩
      have forced := forcedReady_needs installed distinct (.single need) ((agrees plan member []).mp holds)
      by_cases known : ∃ target ∈ plans, target.componentId = link.to
      · obtain ⟨target,there,is⟩ := known
        refine (ready_listed ProbedStatus.toComponentStatus expiring.whole link.to).mpr ⟨target,there,is,?_⟩
        exact (agrees target there []).mpr (is ▸ forced)
      · rw [forcedReady,readiness,checked_away fun target there same => known ⟨target,there,same⟩] at forced
        cases forced
  · rw [ended]
    rw [observed] at listed fresh
    obtain rfl := listed_eq distinct started.named member listed named
    refine List.mem_map.mpr ⟨plan,member,(expiring.same plan member).resolve_right fun touched => ?_⟩
    obtain ⟨root,inside,path⟩ := expiring.reaches plan.componentId touched
    obtain ⟨other,there,rfl,stale⟩ := known root inside
    exact fresh other there path _ (List.mem_map_of_mem there) (started.named other there) stale

/-- Of the checks only what they say of the plans is read. -/
theorem observeProbedStatuses_eq {plans : List ComponentPlanContract} {evidence : Evidence} {now : Int}
    {current : ComponentPlanContract → Option ProbeObservation}
    (known : ∀ plan ∈ plans, currentObservation plan evidence now = current plan) (readings : ClusterReadings)
    (previous : List ComponentStatus) (down : List String) :
    observeProbedStatuses plans readings evidence previous down now =
      List.zipWith (fun plan status => ⟨status,(current plan).map ProbeObservation.timing⟩) plans
        (observeComponentStatuses plans (readings.resources fun plan => protocolObservation (current plan)) previous
          down now) := by
  have times : plans.map (currentObservation · evidence now) = plans.map current := List.map_congr_left known
  have statuses : plans.map (fun plan => observeComponent plan
        (readings.resources fun plan => protocolObservation (currentObservation plan evidence now)) previous
        (down.contains plan.componentId) now) =
      plans.map fun plan => observeComponent plan (readings.resources fun plan => protocolObservation (current plan))
        previous (down.contains plan.componentId) now := by
    refine List.map_congr_left fun plan member => ?_
    have atomic : ∀ stopped, observeAtomicConditions plan
          (readings.resources fun plan => protocolObservation (currentObservation plan evidence now)) stopped now =
        observeAtomicConditions plan (readings.resources fun plan => protocolObservation (current plan)) stopped now := by
      intro stopped
      have reads : readingOf plan
            (readings.resources fun plan => protocolObservation (currentObservation plan evidence now)) stopped =
          readingOf plan (readings.resources fun plan => protocolObservation (current plan)) stopped := by
        funext condition
        simp only [readingOf,ClusterReadings.resources,known plan member]
      simp only [observeAtomicConditions,reads]
    simp only [observeComponent,atomic]
  unfold observeProbedStatuses observeComponentStatuses
  rw [statuses]
  have split (times : ComponentPlanContract → Option ProbeObservation) (statuses : List ComponentStatus) :
      List.zipWith (fun plan status => (⟨status,(times plan).map ProbeObservation.timing⟩ : ProbedStatus)) plans statuses =
        List.zipWith (fun time status => ⟨status,time.map ProbeObservation.timing⟩) (plans.map times) statuses  := by
    rw [List.zipWith_map_left]
  rw [split,split,times]

/-! ### Two nodes that are peers on the chain -/

/-- Two chain nodes, the first of which is linked to the second as its peer. -/
def chainCell : CellSpec :=
  { apiVersion := apiVersion
    name := "chain-cell"
    components := [⟨"alpha",.bitcoin,"bitcoin-core",none,"bitcoin-core/31/v1",.cell,[]⟩,
      ⟨"beta",.bitcoin,"bitcoin-core",none,"bitcoin-core/31/v1",.cell,[]⟩]
    links := [⟨"to-beta",.bitcoinPeer,"alpha","beta",none⟩]
    policy := ⟨[],⟨none,none,none⟩⟩ }

def chainPlans : List ComponentPlanContract :=
  (publishedPlans documentDigest lightningCatalog chainCell "sha256:revision").toOption.getD []

def healthyReadings : ClusterReadings where
  workload := fun _ => ⟨.true,.workloadAvailable,"observed"⟩
  storage := fun _ => ⟨.true,.storageBound,"observed"⟩
  credential := fun _ => ⟨.true,.credentialsProjected,"observed"⟩
  service := fun _ => ⟨.true,.endpointsReady,"observed"⟩
  unstopped := fun _ => ⟨by decide,by decide,by decide,by decide⟩

/-- Both answered, but the answer of the second is good for less time. -/
def chainEvidence : Evidence where
  protocol := fun id => (chainPlans.find? (·.componentId == id)).map fun plan =>
    ⟨plan.rolloutDigest,"sha256:runtime","worker",.reachable,⟨10,if id = "beta" then 50 else 100,1⟩⟩
  eligibleTarget := fun _ => some "sha256:runtime"
  workerUp := fun _ => true

def chainExpired : List ProbedStatus :=
  expireProtocolStatus chainPlans (observeProbedStatuses chainPlans healthyReadings chainEvidence [] [] 20) 60

/-- What is known of the chain nodes at 20. -/
def chainCurrent (plan : ComponentPlanContract) : Option ProbeObservation :=
  some ⟨plan.rolloutDigest,"sha256:runtime","worker",.reachable,⟨10,if plan.componentId = "beta" then 50 else 100,1⟩⟩

theorem chain_current : ∀ plan ∈ chainPlans, currentObservation plan chainEvidence 20 = chainCurrent plan := by
  have distinct : (chainPlans.reverse.map ComponentPlanContract.componentId).Nodup := by decide +kernel
  intro plan member
  have found := planOf_distinct distinct (List.mem_reverse.mpr member)
  rw [List.reverse_reverse] at found
  simp only [currentObservation,chainEvidence,found,Option.map_some]
  refine if_pos ⟨trivial,trivial,?_,trivial⟩
  split_ifs <;> rfl

theorem expiry_agrees_chain : ExpiryAgrees chainPlans healthyReadings chainEvidence [] [] 20 60 :=
  expiry_agrees _ _ _ _ _ _ _ (by unfold Installed; decide +kernel) (by decide +kernel)

/-- The first stays ready when the second is ready no longer: a chain node does not report
    on its peers. -/
theorem chain_peer_unready :
    (publishedPlans documentDigest lightningCatalog chainCell "sha256:revision").toOption = some chainPlans ∧
    ∃ plan ∈ chainPlans, ∃ status ∈ chainExpired, status.id = plan.componentId ∧ status.ready = true ∧
      ∃ link ∈ plan.relevantLinks, ¬ ∃ target ∈ chainExpired, target.id = link.to ∧ target.ready = true := by
  constructor
  · have published : (publishedPlans documentDigest lightningCatalog chainCell "sha256:revision").toOption.isSome := by
      decide +kernel
    obtain ⟨plans,known⟩ := Option.isSome_iff_exists.mp published
    rw [chainPlans,known,Option.getD_some]
  · rw [chainExpired,observeProbedStatuses_eq chain_current]
    decide +kernel

end Proofstorm.Readiness
