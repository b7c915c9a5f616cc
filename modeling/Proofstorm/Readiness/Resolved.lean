import Proofstorm.Readiness.Least
import Proofstorm.Readiness.Deadlock

/-!
What an observation of a cell ends at: the least solution of its readiness equations, in
whatever order the plans and links come, with the times of the conditions that say what
they said before.
-/
namespace Proofstorm.Readiness
open Proofstorm.Core Publication Plans Ascent

/-! ### The equations of a cell -/

/-- The states of a cell's conditions, as a list of statuses has them. -/
def statesOf (statuses : List ComponentStatus) (id : String) (wanted : ComponentConditionType) : ComponentConditionState :=
  ((statuses.find? (·.id == id)).map fun status => stateOf status.conditions wanted).getD .unknown

/-- What is observed of a component stands, its dependencies are the conjunction of the
    readiness of what its links lead to, and what its contract aggregates is the
    conjunction of what it requires. Where there is no component, none is ready. -/
structure Solves (plans : List ComponentPlanContract) (resources : ComponentObservationResources) (down : List String)
    (now : Int) (states : String → ComponentConditionType → ComponentConditionState) : Prop where
  observed : ∀ plan ∈ plans, ∀ wanted ∈ plan.applicableConditions, wanted ≠ .dependenciesReady →
    wanted ≠ .componentReady → states plan.componentId wanted =
      stateOf (observeAtomicConditions plan resources (down.contains plan.componentId) now) wanted
  dependencies : ∀ plan ∈ plans, .dependenciesReady ∈ plan.applicableConditions →
    states plan.componentId .dependenciesReady =
      conjunction (plan.relevantLinks.map fun link => states link.to .componentReady).toFinset
  aggregated : ∀ plan ∈ plans, ∀ aggregation ∈ plan.conditionAggregation, states plan.componentId aggregation.condition =
    conjunction (aggregation.allOf.map (states plan.componentId)).toFinset
  away : ∀ id, (∀ plan ∈ plans, plan.componentId ≠ id) → states id .componentReady = .unknown

/-- The components of a cell as each is observed by itself. -/
def observedPairs (plans : List ComponentPlanContract) (resources : ComponentObservationResources)
    (previous : List ComponentStatus) (down : List String) (now : Int) : Pairs :=
  plans.map fun plan => (plan,observeComponent plan resources previous (down.contains plan.componentId) now)

/-- The same components in another order, with their links in another order. -/
def Reordered (pairs others : Pairs) : Prop :=
  ∃ middle, pairs.Perm middle ∧ List.Forall₂ (fun pair other => other.2 = pair.2 ∧
    ∃ links, pair.1.relevantLinks.Perm links ∧ other.1 = { pair.1 with relevantLinks := links }) middle others

section
variable {plans : List ComponentPlanContract} {plan : ComponentPlanContract} {resources : ComponentObservationResources}
  {previous : List ComponentStatus} {down : List String} {now : Int} {pairs others : Pairs}

theorem observed_plans : (observedPairs plans resources previous down now).map Prod.fst = plans := by
  rw [observedPairs,List.map_map]
  exact List.map_id _

theorem observed_ids (resources : ComponentObservationResources) (previous : List ComponentStatus) (down : List String)
    (now : Int) (distinct : (plans.map ComponentPlanContract.componentId).Nodup) :
    ((observedPairs plans resources previous down now).map fun pair => pair.1.componentId).Nodup := by
  rw [observedPairs,List.map_map]
  exact distinct

/-- An observation resolves what is observed of each component by itself. -/
theorem observe_eq : observeComponentStatuses plans resources previous down now =
    resolveDependencyConditions ((observedPairs plans resources previous down now).map Prod.fst)
      ((observedPairs plans resources previous down now).map Prod.snd) previous down now := by
  rw [observed_plans,observedPairs,List.map_map]
  rfl

theorem fresh_observed (resources : ComponentObservationResources) (previous : List ComponentStatus) (stopped : Bool)
    (now : Int) (contracted : Contracted plan) : Fresh plan (observeComponent plan resources previous stopped now) := by
  obtain ⟨kept,alone,ready⟩ := observeComponent_spec resources previous stopped now contracted
  refine ⟨contracted,kept.id,kept.types,fun dependent => ?_,?_⟩
  · rw [alone _ (dependent_iff.mp dependent) (by decide),dependencies_unobserved plan resources stopped now dependent]
  · rw [ready]
    refine congrArg aggregateStates (List.map_congr_left fun wanted required => ?_)
    obtain ⟨applicable,unready⟩ := mem_readyConditions required
    exact (alone wanted applicable unready).symm

theorem fresh_pairs (contracted : ∀ plan ∈ plans, Contracted plan) :
    ∀ pair ∈ observedPairs plans resources previous down now, Fresh pair.1 pair.2 := by
  intro pair member
  obtain ⟨plan,there,rfl⟩ := List.mem_map.mp member
  exact fresh_observed resources previous _ now (contracted plan there)

/-! ### The order of plans and links -/

theorem Reordered.network (reordered : Reordered pairs others)
    (distinct : (pairs.map fun pair => pair.1.componentId).Nodup) :
    networkOf others = networkOf pairs ∧ idsOf others = idsOf pairs ∧
      (others.map fun pair => pair.1.componentId).Nodup := by
  obtain ⟨middle,perm,each⟩ := reordered
  have ids : others.map (fun pair => pair.1.componentId) = middle.map fun pair => pair.1.componentId := by
    clear perm
    induction each with
    | nil => rfl
    | cons same _ ih =>
      obtain ⟨_,links,_,changed⟩ := same
      rw [List.map_cons,List.map_cons,ih,changed]
  have nodes : others.map (fun pair => (pair.1.componentId,nodeOf pair.1 (stateOf pair.2.conditions))) =
      middle.map fun pair => (pair.1.componentId,nodeOf pair.1 (stateOf pair.2.conditions)) := by
    clear perm ids
    induction each with
    | nil => rfl
    | cons same _ ih =>
      obtain ⟨status,links,permuted,changed⟩ := same
      rw [List.map_cons,List.map_cons,ih,changed,status]
      congr 2
      unfold nodeOf
      congr 2
      exact congrArg some (List.toFinset_eq_of_perm _ _ (permuted.symm.map LinkSpec.to))
  have moved := perm.map fun pair => pair.1.componentId
  refine ⟨?_,?_,?_⟩
  · funext id
    rw [networkOf,nodes,networkOf]
    refine (Entries.lookup_perm (perm.map fun pair => (pair.1.componentId,nodeOf pair.1 (stateOf pair.2.conditions))) ?_ id).symm
    rw [List.map_map]
    exact distinct
  · rw [idsOf,ids,idsOf]
    exact (List.toFinset_eq_of_perm _ _ moved).symm
  · rw [ids]
    exact moved.nodup_iff.mp distinct

theorem Reordered.fresh (reordered : Reordered pairs others) (fresh : ∀ pair ∈ pairs, Fresh pair.1 pair.2) :
    ∀ pair ∈ others, Fresh pair.1 pair.2 := by
  obtain ⟨middle,perm,each⟩ := reordered
  intro other member
  obtain ⟨pair,there,same,links,_,changed⟩ := exists_of_mem_right each member
  obtain ⟨contracted,named,typed,waiting,ready⟩ := fresh pair (perm.mem_iff.mpr there)
  rw [changed,same]
  exact ⟨contracted,named,typed,waiting,ready⟩

/-- The order of plans and links changes no status. -/
theorem Reordered.resolved (reordered : Reordered pairs others) (fresh : ∀ pair ∈ pairs, Fresh pair.1 pair.2)
    (distinct : (pairs.map fun pair => pair.1.componentId).Nodup) :
    (resolveDependencyConditions (others.map Prod.fst) (others.map Prod.snd) previous down now).Perm
      (resolveDependencyConditions (pairs.map Prod.fst) (pairs.map Prod.snd) previous down now) := by
  obtain ⟨network,ids,distinct'⟩ := reordered.network distinct
  rw [resolved_eq previous down now (reordered.fresh fresh) distinct',resolved_eq previous down now fresh distinct]
  have same : forcedOf others = forcedOf pairs := by rw [forcedOf,network,ids,forcedOf]
  obtain ⟨middle,perm,each⟩ := reordered
  have settled : standing down now (forcedOf others) others = standing down now (forcedOf pairs) middle := by
    rw [same,standing,standing]
    clear perm same network ids distinct'
    induction each with
    | nil => rfl
    | cons changed _ ih =>
      obtain ⟨status,links,_,changed⟩ := changed
      rw [List.map_cons,List.map_cons,ih,changed,status]
      rfl
  rw [settled]
  exact ((perm.map _).map _).symm

/-! ### The solution -/

/-- A component in the end. -/
def finalOf (previous : List ComponentStatus) (down : List String) (now : Int) (pairs : Pairs)
    (pair : ComponentPlanContract × ComponentStatus) : ComponentStatus :=
  finishStatus previous (settledBy down now pair.1 (forcedOf pairs pair.1.componentId) pair.2)

theorem resolved_final (previous : List ComponentStatus) (down : List String) (now : Int)
    (fresh : ∀ pair ∈ pairs, Fresh pair.1 pair.2) (distinct : (pairs.map fun pair => pair.1.componentId).Nodup) :
    resolveDependencyConditions (pairs.map Prod.fst) (pairs.map Prod.snd) previous down now =
      pairs.map (finalOf previous down now pairs) := by
  rw [resolved_eq previous down now fresh distinct,standing,List.map_map]
  rfl

variable {pair : ComponentPlanContract × ComponentStatus}
variable {states : String → ComponentConditionType → ComponentConditionState} {status : ComponentStatus}

theorem finalOf_id (fresh : Fresh pair.1 pair.2) :
    (finalOf previous down now pairs pair).id = pair.1.componentId :=
  finishStatus_spec.1.trans (settledBy_id.trans fresh.id)

section
variable (fresh : ∀ pair ∈ pairs, Fresh pair.1 pair.2) (distinct : (pairs.map fun pair => pair.1.componentId).Nodup)
include fresh distinct

/-- The states of a component in the end. -/
theorem statesOf_final (member : pair ∈ pairs) (wanted : ComponentConditionType) :
    statesOf (pairs.map (finalOf previous down now pairs)) pair.1.componentId wanted =
      stateOf (settledBy down now pair.1 (forcedOf pairs pair.1.componentId) pair.2).conditions wanted := by
  have found : (pairs.map (finalOf previous down now pairs)).find? (·.id == pair.1.componentId) =
      some (finalOf previous down now pairs pair) := by
    cases search : (pairs.map (finalOf previous down now pairs)).find? (·.id == pair.1.componentId) with
    | none =>
      have missed := List.find?_eq_none.mp search _ (List.mem_map_of_mem member)
      rw [finalOf_id (fresh pair member)] at missed
      exact absurd (beq_self_eq_true _) missed
    | some status =>
      obtain ⟨other,there,rfl⟩ := List.mem_map.mp (List.mem_of_find?_eq_some search)
      have same := List.find?_some search
      rw [beq_iff_eq,finalOf_id (fresh other there)] at same
      rw [List.inj_on_of_nodup_map distinct there member same]
  rw [statesOf,found]
  exact finishStatus_spec.2.2 wanted

/-- The readiness of every component in the end is the forced one. -/
theorem ready_final (id : String) :
    statesOf (pairs.map (finalOf previous down now pairs)) id .componentReady =
      readiness (networkOf pairs) (forcedOf pairs) id := by
  by_cases inside : id ∈ idsOf pairs
  · obtain ⟨pair,member,rfl⟩ := List.mem_map.mp (List.mem_toFinset.mp inside)
    rw [statesOf_final fresh distinct member]
    exact settledBy_ready down now fresh distinct (forcedOf pairs) member
  · have absent : networkOf pairs id = none := lookup_of_away _ inside
    have away : (pairs.map (finalOf previous down now pairs)).find? (·.id == id) = none := by
      refine List.find?_eq_none.mpr fun status member => ?_
      obtain ⟨pair,there,rfl⟩ := List.mem_map.mp member
      rw [finalOf_id (fresh pair there),beq_iff_eq]
      rintro rfl
      exact inside (List.mem_toFinset.mpr (List.mem_map_of_mem there))
    rw [readiness,absent,statesOf,away]
    rfl
end

/-- The targets of a dependent component. -/
theorem targets_of_dependent (distinct : (pairs.map fun pair => pair.1.componentId).Nodup)
    (member : pair ∈ pairs) (dependent : pair.1.dependent = true) :
    (networkOf pairs pair.1.componentId).bind Node.targets = some (pair.1.relevantLinks.map LinkSpec.to).toFinset := by
  rw [networkOf_of_mem distinct member,Option.bind_some,nodeOf,dependent]
  rfl

theorem image_links (links : List LinkSpec) (value : String → ComponentConditionState) :
    (links.map LinkSpec.to).toFinset.image value = (links.map fun link => value link.to).toFinset := by
  ext state
  simp only [List.mem_toFinset,List.mem_map,Finset.mem_image]
  constructor
  · rintro ⟨_,⟨link,carried,rfl⟩,rfl⟩
    exact ⟨link,carried,rfl⟩
  · rintro ⟨link,carried,rfl⟩
    exact ⟨_,⟨link,carried,rfl⟩,rfl⟩

section
variable (fresh : ∀ pair ∈ pairs, Fresh pair.1 pair.2) (distinct : (pairs.map fun pair => pair.1.componentId).Nodup)
  (member : pair ∈ pairs)
include fresh distinct member

theorem final_dependencies (dependent : pair.1.dependent = true) :
    statesOf (pairs.map (finalOf previous down now pairs)) pair.1.componentId .dependenciesReady =
      conjunction (pair.1.relevantLinks.map fun link =>
        statesOf (pairs.map (finalOf previous down now pairs)) link.to .componentReady).toFinset := by
  obtain ⟨contracted,_,typed,_,_⟩ := fresh pair member
  have inside : ∀ id, networkOf pairs id ≠ none → id ∈ idsOf pairs := networkOf_inside
  rw [statesOf_final fresh distinct member,((settledBy_spec down now _ contracted typed).2.2 dependent).1,forcedOf,
    ← forced_fixed inside,waits,targets_of_dependent distinct member dependent]
  dsimp only
  rw [image_links]
  simp only [ready_final fresh distinct,forcedOf]

theorem final_aggregated :
    statesOf (pairs.map (finalOf previous down now pairs)) pair.1.componentId .componentReady =
      conjunction ((readyConditions pair.1).map
        (statesOf (pairs.map (finalOf previous down now pairs)) pair.1.componentId)).toFinset := by
  have each : statesOf (pairs.map (finalOf previous down now pairs)) pair.1.componentId = _ :=
    funext (statesOf_final fresh distinct member)
  rw [each,← aggregateStates_eq]
  exact settledBy_aggregated down now _ (fresh pair member)
end

/-- The end of an observation solves the equations. -/
theorem final_solves (contracted : ∀ plan ∈ plans, Contracted plan)
    (distinct : (plans.map ComponentPlanContract.componentId).Nodup) :
    Solves plans resources down now (statesOf (observeComponentStatuses plans resources previous down now)) := by
  have fresh : ∀ pair ∈ observedPairs plans resources previous down now, Fresh pair.1 pair.2 := fresh_pairs contracted
  have apart := observed_ids resources previous down now distinct
  rw [observe_eq,resolved_final previous down now fresh apart]
  have known : ∀ plan ∈ plans, (plan,observeComponent plan resources previous (down.contains plan.componentId) now) ∈
      observedPairs plans resources previous down now := fun plan member => List.mem_map_of_mem member
  refine ⟨fun plan member wanted applicable other unready => ?_,fun plan member applicable => ?_,
    fun plan member aggregation listed => ?_,fun id away => ?_⟩
  · have typed := (fresh _ (known plan member)).types
    rw [statesOf_final fresh apart (known plan member),
      (settledBy_spec down now _ (contracted plan member) typed).2.1 wanted unready other]
    exact (observeComponent_spec resources previous _ now (contracted plan member)).2.1 wanted applicable unready
  · exact final_dependencies fresh apart (known plan member) (dependent_iff.mpr applicable)
  · rw [(contracted plan member).aggregations,List.mem_singleton] at listed
    rw [listed]
    exact final_aggregated fresh apart (known plan member)
  · have absent : networkOf (observedPairs plans resources previous down now) id = none := by
      refine lookup_of_away _ fun inside => ?_
      obtain ⟨pair,there,named⟩ := List.mem_map.mp (List.mem_toFinset.mp inside)
      obtain ⟨plan,member,rfl⟩ := List.mem_map.mp there
      exact away plan member named
    rw [ready_final fresh apart,readiness,absent]

/-- What another solution says of the dependencies of the components that report on them. -/
def dependenciesOf (pairs : Pairs) (states : String → ComponentConditionType → ComponentConditionState) (id : String) :
    ComponentConditionState :=
  match (networkOf pairs id).bind Node.targets with
  | none => .unknown
  | some _ => states id .dependenciesReady

section
variable (contracted : ∀ plan ∈ plans, Contracted plan)
  (distinct : (plans.map ComponentPlanContract.componentId).Nodup) (solves : Solves plans resources down now states)
include contracted distinct solves

/-- A solution is as ready as what it says of dependencies makes it. -/
theorem Solves.readiness_eq (id : String) : readiness (networkOf (observedPairs plans resources previous down now))
      (dependenciesOf (observedPairs plans resources previous down now) states) id = states id .componentReady := by
  have apart := observed_ids resources previous down now distinct
  by_cases inside : id ∈ idsOf (observedPairs plans resources previous down now)
  · obtain ⟨pair,there,rfl⟩ := List.mem_map.mp (List.mem_toFinset.mp inside)
    have known := networkOf_of_mem apart there
    obtain ⟨plan,member,rfl⟩ := List.mem_map.mp there
    have same : nodeOf plan (stateOf (observeComponent plan resources previous (down.contains plan.componentId) now).conditions) =
        nodeOf plan (states plan.componentId) := by
      refine nodeOf_congr fun wanted required other => ?_
      obtain ⟨applicable,unready⟩ := mem_readyConditions required
      rw [solves.observed plan member wanted applicable other unready]
      exact (observeComponent_spec resources previous _ now (contracted plan member)).2.1 wanted applicable unready
    have ready : states plan.componentId .componentReady =
        conjunction ((readyConditions plan).map (states plan.componentId)).toFinset := by
      refine solves.aggregated plan member ⟨.componentReady,readyConditions plan⟩ ?_
      rw [(contracted plan member).aggregations]
      exact List.mem_singleton_self _
    rw [ready,← ready_nodeOf,readiness,known]
    dsimp only
    rw [same,dependenciesOf,known,Option.bind_some,same]
    cases dependent : plan.dependent with
    | true => simp only [Node.ready,nodeOf,dependent,if_true]
    | false => simp only [Node.ready,nodeOf,dependent,Bool.false_eq_true,if_false]
  · have absent : networkOf (observedPairs plans resources previous down now) id = none := lookup_of_away _ inside
    rw [readiness,absent,solves.away id fun plan member named => inside ?_]
    rw [← named]
    exact List.mem_toFinset.mpr (List.mem_map.mpr ⟨_,List.mem_map_of_mem member,rfl⟩)

theorem Solves.waits_eq :
    waits (networkOf (observedPairs plans resources previous down now))
      (dependenciesOf (observedPairs plans resources previous down now) states) =
      dependenciesOf (observedPairs plans resources previous down now) states := by
  have apart := observed_ids resources previous down now distinct
  funext id
  by_cases inside : id ∈ idsOf (observedPairs plans resources previous down now)
  · obtain ⟨pair,there,rfl⟩ := List.mem_map.mp (List.mem_toFinset.mp inside)
    have known := networkOf_of_mem apart there
    have targets := targets_of_dependent apart there
    obtain ⟨plan,member,rfl⟩ := List.mem_map.mp there
    cases dependent : plan.dependent with
    | true =>
      rw [waits,dependenciesOf,targets dependent]
      dsimp only
      rw [image_links,solves.dependencies plan member (dependent_iff.mp dependent)]
      simp only [solves.readiness_eq contracted distinct]
    | false =>
      have alone : (nodeOf plan (stateOf
          (observeComponent plan resources previous (down.contains plan.componentId) now).conditions)).targets = none := by
        rw [nodeOf,dependent]
        rfl
      rw [waits,dependenciesOf,known,Option.bind_some,alone]
  · have absent : networkOf (observedPairs plans resources previous down now) id = none := lookup_of_away _ inside
    rw [waits,dependenciesOf,absent]
    rfl
end

/-- No state at the end of an observation is known that another solution leaves unknown. -/
theorem final_least (previous : List ComponentStatus) (contracted : ∀ plan ∈ plans, Contracted plan)
    (distinct : (plans.map ComponentPlanContract.componentId).Nodup)
    (solves : Solves plans resources down now states)
    (member : plan ∈ plans) {wanted : ComponentConditionType} (applicable : wanted ∈ plan.applicableConditions) :
    statesOf (observeComponentStatuses plans resources previous down now) plan.componentId wanted ≤
      states plan.componentId wanted := by
  have fresh : ∀ pair ∈ observedPairs plans resources previous down now, Fresh pair.1 pair.2 := fresh_pairs contracted
  have apart := observed_ids resources previous down now distinct
  have known : (plan,observeComponent plan resources previous (down.contains plan.componentId) now) ∈
      observedPairs plans resources previous down now := List.mem_map_of_mem member
  have below : forcedOf (observedPairs plans resources previous down now) ≤
      dependenciesOf (observedPairs plans resources previous down now) states :=
    forced_le (solves.waits_eq contracted distinct)
  by_cases ready : wanted = .componentReady
  · rw [ready,← solves.readiness_eq contracted distinct,observe_eq,resolved_final previous down now fresh apart,
      ready_final fresh apart]
    exact readiness_mono below plan.componentId
  · by_cases waiting : wanted = .dependenciesReady
    · subst waiting
      have dependent := dependent_iff.mpr applicable
      have typed := (fresh _ known).types
      have bounded := below plan.componentId
      rw [dependenciesOf,targets_of_dependent apart known dependent] at bounded
      rw [observe_eq,resolved_final previous down now fresh apart,statesOf_final fresh apart known,
        ((settledBy_spec down now _ (contracted plan member) typed).2.2 dependent).1]
      exact bounded
    · rw [(final_solves contracted distinct).observed plan member wanted applicable waiting ready,
        solves.observed plan member wanted applicable waiting ready]

/-! ### Times -/

/-- The time of a condition that an earlier status may already have had. -/
def timeFrom (earlier : Option ComponentStatus) (now : Int) (condition : ComponentCondition) : Int :=
  match earlier.bind fun status => status.conditions.find? fun candidate =>
      candidate.conditionType == condition.conditionType && candidate.state == condition.state &&
        candidate.reason == condition.reason && candidate.message == condition.message with
  | some same => same.lastTransitionUnix
  | none => now

variable {condition : ComponentCondition} {conditions : List ComponentCondition}

theorem alike_iff {candidate : ComponentCondition} : (candidate.conditionType == condition.conditionType &&
    candidate.state == condition.state && candidate.reason == condition.reason &&
    candidate.message == condition.message) = true ↔ candidate.conditionType = condition.conditionType ∧
      candidate.state = condition.state ∧ candidate.reason = condition.reason ∧ candidate.message = condition.message := by
  simp only [Bool.and_eq_true,beq_iff_eq,and_assoc]

/-- Every condition is new, or has the time it had. -/
def Stamped (earlier : Option ComponentStatus) (now : Int) (conditions : List ComponentCondition) : Prop :=
  ∀ condition ∈ conditions, condition.lastTransitionUnix = now ∨
    condition.lastTransitionUnix = timeFrom earlier now condition

/-- Keeping the times of an earlier status. -/
theorem preserve_time (stamped : Stamped (some status) now conditions) :
    ∀ condition ∈ preserveConditionTransitions conditions status.conditions,
      condition.lastTransitionUnix = timeFrom (some status) now condition := by
  intro kept member
  obtain ⟨condition,there,rfl⟩ := List.mem_map.mp member
  split
  · rename_i same found
    simp only [timeFrom,Option.bind_some,found]
  · rename_i found
    have fresh : timeFrom (some status) now condition = now := by
      rw [timeFrom,Option.bind_some,found]
    obtain new | old := stamped condition there
    · rw [new,fresh]
    · exact old

theorem mem_dedupConditions (member : condition ∈ dedupConditions conditions) : condition ∈ conditions := by
  induction conditions using dedupConditions.induct with
  | case1 => simp only [dedupConditions] at member; exact member
  | case2 only => simp only [dedupConditions] at member; exact member
  | case3 first second rest same ih =>
    simp only [dedupConditions,same,if_true] at member
    obtain rfl | later := List.mem_cons.mp (ih member)
    · exact List.mem_cons_self
    · exact List.mem_cons_of_mem _ (List.mem_cons_of_mem _ later)
  | case4 first second rest differ ih =>
    simp only [dedupConditions,differ,if_false] at member
    obtain rfl | later := List.mem_cons.mp member
    · exact List.mem_cons_self
    · exact List.mem_cons_of_mem _ (ih later)

/-- What is observed of a component, or its readiness. -/
theorem mem_aggregated (contracted : Contracted plan) {stopped : Bool} {condition : ComponentCondition}
    (member : condition ∈ dedupConditions (sortConditions (aggregateConditions plan.conditionAggregation stopped now
      (observeAtomicConditions plan resources stopped now)))) :
    condition ∈ observeAtomicConditions plan resources stopped now ∨
      ∃ state, condition = aggregatedCondition .componentReady state stopped now := by
  have listed := (sortConditions_perm _).mem_iff.mp (mem_dedupConditions member)
  rw [contracted.aggregations] at listed
  obtain atomic | ready := List.mem_append.mp listed
  · exact .inl atomic
  · exact .inr ⟨_,List.mem_singleton.mp ready⟩

/-- What a component is observed to be by itself has the times it had. -/
theorem observe_time (contracted : Contracted plan) (stopped : Bool) :
    ∀ condition ∈ (observeComponent plan resources previous stopped now).conditions,
      condition.lastTransitionUnix = timeFrom (previous.find? (·.isOf plan)) now condition := by
  have new : ∀ condition ∈ dedupConditions (sortConditions (aggregateConditions plan.conditionAggregation stopped now
      (observeAtomicConditions plan resources stopped now))), condition.lastTransitionUnix = now := by
    intro condition member
    obtain atomic | ⟨state,rfl⟩ := mem_aggregated contracted member
    · obtain ⟨conditionType,_,read⟩ := List.mem_filterMap.mp atomic
      obtain ⟨reading,_,rfl⟩ := Option.map_eq_some_iff.mp read
      rfl
    · exact aggregatedCondition_time _ _ _ _
  unfold observeComponent ComponentStatus.deriveReady
  dsimp only
  cases found : previous.find? (·.isOf plan) with
  | some status => exact preserve_time fun condition member => .inl (new condition member)
  | none => exact new

theorem stamped_settled {earlier : Option ComponentStatus} (state : ComponentConditionState)
    (contracted : Contracted plan) (typed : types status.conditions = plan.applicableConditions)
    (stamped : Stamped earlier now status.conditions) :
    Stamped earlier now (settledBy down now plan state status).conditions := by
  cases dependent : plan.dependent with
  | false =>
    rw [settledBy_independent dependent]
    exact stamped
  | true =>
    rw [settledBy_map down now state contracted typed dependent]
    intro settled member
    obtain ⟨condition,there,rfl⟩ := List.mem_map.mp member
    split_ifs
    · exact .inl (aggregatedCondition_time _ _ _ _)
    · exact .inl (dependenciesCondition_time _ _)
    · exact stamped condition there

theorem find_unique {statuses : List ComponentStatus} (unique : (statuses.map ComponentStatus.id).Nodup)
    {picks : ComponentStatus → Bool} (id : String) (about : ∀ status, picks status = true → status.id = id) : statuses.find? picks = some status ↔ status ∈ statuses ∧ picks status = true := by
  constructor
  · exact fun found => ⟨List.mem_of_find?_eq_some found,List.find?_some found⟩
  · rintro ⟨member,picked⟩
    obtain ⟨first,found⟩ := Option.isSome_iff_exists.mp (List.find?_isSome.mpr ⟨status,member,picked⟩)
    have same : first.id = status.id := (about first (List.find?_some found)).trans (about status picked).symm
    rw [found,List.inj_on_of_nodup_map unique (List.mem_of_find?_eq_some found) member same]

/-- With one status a component, the last one of its id is the one of its identity. -/
theorem earlier_eq (unique : (previous.map ComponentStatus.id).Nodup)
    (named : status.id = plan.componentId) (revision : status.observedRevisionDigest = plan.revisionDigest)
    (rollout : status.observedRolloutDigest = plan.rolloutDigest) :
    (previous.reverse.find? (·.id == status.id)).filter (fun earlier =>
      earlier.observedRevisionDigest == status.observedRevisionDigest &&
        earlier.observedRolloutDigest == status.observedRolloutDigest) = previous.find? (·.isOf plan) := by
  have unique' : (previous.reverse.map ComponentStatus.id).Nodup := by
    rw [List.map_reverse]
    exact List.nodup_reverse.mpr unique
  ext earlier
  rw [Option.filter_eq_some_iff,find_unique unique' status.id fun _ is => beq_iff_eq.mp is,
    find_unique unique plan.componentId fun _ is => ?_,List.mem_reverse,ComponentStatus.isOf,named,revision,rollout]
  · simp only [Bool.and_eq_true,and_assoc]
  · simp only [ComponentStatus.isOf,Bool.and_eq_true,beq_iff_eq] at is
    exact is.1.1

theorem isOf_iff : status.isOf plan = true ↔ status.id = plan.componentId ∧
    status.observedRevisionDigest = plan.revisionDigest ∧ status.observedRolloutDigest = plan.rolloutDigest := by
  simp only [ComponentStatus.isOf,Bool.and_eq_true,beq_iff_eq,and_assoc]

/-- A finished component has the times it had. -/
theorem finish_time (unique : (previous.map ComponentStatus.id).Nodup)
    (identity : status.isOf plan = true) (stamped : Stamped (previous.find? (·.isOf plan)) now status.conditions) :
    ∀ condition ∈ (finishStatus previous status).conditions,
      condition.lastTransitionUnix = timeFrom (previous.find? (·.isOf plan)) now condition := by
  obtain ⟨named,revision,rollout⟩ := isOf_iff.mp identity
  unfold finishStatus ComponentStatus.deriveReady
  rw [earlier_eq unique named revision rollout]
  cases found : previous.find? (·.isOf plan) with
  | some earlier =>
    rw [found] at stamped
    exact preserve_time stamped
  | none =>
    rw [found] at stamped
    exact fun condition member => (stamped condition member).elim id id

theorem settledBy_isOf {state : ComponentConditionState} :
    (settledBy down now plan state status).isOf plan = status.isOf plan := by
  unfold settledBy
  split_ifs <;> rfl

theorem finishStatus_isOf : (finishStatus previous status).isOf plan = status.isOf plan := by
  unfold finishStatus ComponentStatus.deriveReady
  split <;> rfl

theorem final_time (contracted : ∀ plan ∈ plans, Contracted plan)
    (distinct : (plans.map ComponentPlanContract.componentId).Nodup) (unique : (previous.map ComponentStatus.id).Nodup)
    (member : status ∈ observeComponentStatuses plans resources previous down now) :
    ∃ plan ∈ plans, status.isOf plan = true ∧ ∀ condition ∈ status.conditions,
      condition.lastTransitionUnix = timeFrom (previous.find? (·.isOf plan)) now condition := by
  have fresh : ∀ pair ∈ observedPairs plans resources previous down now, Fresh pair.1 pair.2 := fresh_pairs contracted
  rw [observe_eq,resolved_final previous down now fresh (observed_ids resources previous down now distinct)] at member
  obtain ⟨pair,there,rfl⟩ := List.mem_map.mp member
  have typed := (fresh pair there).types
  obtain ⟨plan,planned,rfl⟩ := List.mem_map.mp there
  have own : (observeComponent plan resources previous (down.contains plan.componentId) now).isOf plan = true :=
    isOf_iff.mpr ⟨rfl,rfl,rfl⟩
  refine ⟨plan,planned,?_,?_⟩
  · exact finishStatus_isOf.trans (settledBy_isOf.trans own)
  · refine finish_time unique (settledBy_isOf.trans own) (stamped_settled _ (contracted plan planned) typed ?_)
    exact fun condition member => .inr (observe_time (contracted plan planned) _ condition member)

/-- The time of a condition, from the one condition of its type that its component had. -/
theorem timeFrom_spec (unique : (previous.map ComponentStatus.id).Nodup)
    (apart : ∀ earlier ∈ previous, (types earlier.conditions).Nodup) (identity : status.isOf plan = true)
    (condition : ComponentCondition) :
    (∀ earlier ∈ previous, earlier.id = status.id → ∀ before ∈ earlier.conditions,
      before.conditionType = condition.conditionType → timeFrom (previous.find? (·.isOf plan)) now condition =
        if earlier.observedRevisionDigest = status.observedRevisionDigest ∧
            earlier.observedRolloutDigest = status.observedRolloutDigest ∧ before.state = condition.state ∧
            before.reason = condition.reason ∧ before.message = condition.message then before.lastTransitionUnix
        else now) ∧
    ((∀ earlier ∈ previous, earlier.id = status.id → condition.conditionType ∉ types earlier.conditions) →
      timeFrom (previous.find? (·.isOf plan)) now condition = now) := by
  obtain ⟨named,revision,rollout⟩ := isOf_iff.mp identity
  constructor
  · intro earlier member same before there typed
    rw [revision,rollout]
    have picks : ∀ candidate : ComponentStatus, candidate.isOf plan = true → candidate.id = plan.componentId :=
      fun _ is => (isOf_iff.mp is).1
    by_cases kept : earlier.observedRevisionDigest = plan.revisionDigest ∧ earlier.observedRolloutDigest = plan.rolloutDigest
    · have found : previous.find? (·.isOf plan) = some earlier := (find_unique unique _ picks).mpr
        ⟨member,isOf_iff.mpr ⟨same.trans named,kept⟩⟩
      rw [timeFrom,found,Option.bind_some]
      cases search : earlier.conditions.find? _ with
      | none =>
        have missed := List.find?_eq_none.mp search before there
        rw [alike_iff] at missed
        exact (if_neg fun ⟨_,_,alike⟩ => missed ⟨typed,alike⟩).symm
      | some candidate =>
        have picked := List.find?_some search
        obtain ⟨about,alike⟩ := alike_iff.mp picked
        have one := List.inj_on_of_nodup_map (apart earlier member) (List.mem_of_find?_eq_some search) there
          (about.trans typed.symm)
        rw [one] at alike
        dsimp only
        rw [one,if_pos ⟨kept.1,kept.2,alike⟩]
    · have missed : previous.find? (·.isOf plan) = none := by
        refine List.find?_eq_none.mpr fun candidate listed is => kept ?_
        have one := List.inj_on_of_nodup_map unique listed member ((picks candidate is).trans (same.trans named).symm)
        exact one ▸ (isOf_iff.mp is).2
      rw [timeFrom,missed,if_neg fun ⟨revised,rolled,_⟩ => kept ⟨revised,rolled⟩]
      rfl
  · intro absent
    cases found : previous.find? (·.isOf plan) with
    | none => rfl
    | some earlier =>
      obtain ⟨member,is⟩ := (find_unique unique plan.componentId fun _ is => (isOf_iff.mp is).1).mp found
      have missing := absent earlier member ((isOf_iff.mp is).1.trans named.symm)
      have none : earlier.conditions.find? (fun candidate => candidate.conditionType == condition.conditionType &&
          candidate.state == condition.state && candidate.reason == condition.reason &&
          candidate.message == condition.message) = none := by
        refine List.find?_eq_none.mpr fun candidate listed alike => missing ?_
        rw [← (alike_iff.mp alike).1]
        exact List.mem_map_of_mem listed
      rw [timeFrom,Option.bind_some,none]

end

/-! ### The whole -/

/-- What an observation ends at. -/
structure LeastResolution (plans : List ComponentPlanContract) (resources : ComponentObservationResources)
    (previous : List ComponentStatus) (down : List String) (now : Int) : Prop where
  /-- Every plan has its status, with the conditions of its contract. -/
  shape : List.Forall₂ (fun plan status => status.isOf plan = true ∧ types status.conditions = plan.applicableConditions)
    plans (observeComponentStatuses plans resources previous down now)
  /-- More passes than there are plans change nothing. -/
  bounded : ∀ passes, plans.length ≤ passes →
    resolvePasses plans down now passes ((observedPairs plans resources previous down now).map Prod.snd) =
      resolvePasses plans down now plans.length ((observedPairs plans resources previous down now).map Prod.snd)
  solves : Solves plans resources down now (statesOf (observeComponentStatuses plans resources previous down now))
  /-- What is true or false in it is the same in every solution. -/
  least : ∀ states, Solves plans resources down now states → ∀ plan ∈ plans, ∀ wanted ∈ plan.applicableConditions,
    statesOf (observeComponentStatuses plans resources previous down now) plan.componentId wanted ≠ .unknown →
    states plan.componentId wanted =
      statesOf (observeComponentStatuses plans resources previous down now) plan.componentId wanted
  /-- The order of plans and links changes no status. -/
  unordered : ∀ others, Reordered (observedPairs plans resources previous down now) others →
    (resolveDependencyConditions (others.map Prod.fst) (others.map Prod.snd) previous down now).Perm
      (observeComponentStatuses plans resources previous down now)
  /-- A condition keeps its time where it says, of the same revision and rollout, what it
      said before, and nowhere else. -/
  times : ∀ status ∈ observeComponentStatuses plans resources previous down now, ∀ condition ∈ status.conditions,
    (∀ earlier ∈ previous, earlier.id = status.id → ∀ before ∈ earlier.conditions,
      before.conditionType = condition.conditionType → condition.lastTransitionUnix =
        if earlier.observedRevisionDigest = status.observedRevisionDigest ∧
            earlier.observedRolloutDigest = status.observedRolloutDigest ∧ before.state = condition.state ∧
            before.reason = condition.reason ∧ before.message = condition.message then before.lastTransitionUnix
        else now) ∧
    ((∀ earlier ∈ previous, earlier.id = status.id → condition.conditionType ∉ types earlier.conditions) →
      condition.lastTransitionUnix = now)

/-- Resolving the dependencies of a cell ends within as many passes as it has plans, at
    the least solution of their equations. -/
theorem resolution_least (plans : List ComponentPlanContract) (resources : ComponentObservationResources)
    (previous : List ComponentStatus) (down : List String) (now : Int) (contracted : ∀ plan ∈ plans, Contracted plan)
    (distinct : (plans.map ComponentPlanContract.componentId).Nodup) (unique : (previous.map ComponentStatus.id).Nodup)
    (apart : ∀ earlier ∈ previous, (types earlier.conditions).Nodup) :
    LeastResolution plans resources previous down now := by
  have fresh : ∀ pair ∈ observedPairs plans resources previous down now, Fresh pair.1 pair.2 := fresh_pairs contracted
  have ids := observed_ids resources previous down now distinct
  refine ⟨?_,fun passes enough => ?_,final_solves contracted distinct,
    fun states solves plan member wanted applicable known => ?_,
    fun others reordered => ?_,fun status member condition listed => ?_⟩
  · rw [observe_eq,resolved_final previous down now fresh ids,observedPairs,List.map_map]
    refine forall₂_map_self fun plan member => ⟨?_,?_⟩
    · exact finishStatus_isOf.trans (settledBy_isOf.trans (isOf_iff.mpr ⟨rfl,rfl,rfl⟩))
    · have typed := (fresh_observed resources previous (down.contains plan.componentId) now (contracted plan member)).types
      exact finishStatus_spec.2.1.trans (settledBy_spec down now _ (contracted plan member) typed).1
  · have all : ∀ passes, plans.length ≤ passes →
        resolvePasses plans down now passes ((observedPairs plans resources previous down now).map Prod.snd) =
          standing down now (forcedOf (observedPairs plans resources previous down now))
            (observedPairs plans resources previous down now) := by
      intro passes enough
      have settled := @passes_eq down now _ fresh ids passes (by rw [observedPairs,List.length_map]; exact enough)
      rwa [observed_plans] at settled
    rw [all passes enough,all plans.length le_rfl]
  · obtain unknown | same := final_least previous contracted distinct solves member applicable
    · exact absurd unknown known
    · exact same.symm
  · rw [observe_eq]
    exact reordered.resolved fresh ids
  · obtain ⟨plan,_,identity,kept⟩ := final_time contracted distinct unique member
    rw [kept condition listed]
    exact timeFrom_spec unique apart identity condition

/-- Each of two nodes is the other's peer: nothing is known of either, at any time. -/
theorem resolution_least_peers :
    LeastResolution (lightningPlans [peer "to-bob" "alice" "bob",peer "to-alice" "bob" "alice"]) healthy
      (lightningStatuses [peer "to-bob" "alice" "bob",peer "to-alice" "bob" "alice"]) [] 200 ∧
    statesOf (lightningStatuses [peer "to-bob" "alice" "bob",peer "to-alice" "bob" "alice"]) "alice" .componentReady =
      .unknown := by
  have each : ∀ plan ∈ lightningPlans [peer "to-bob" "alice" "bob",peer "to-alice" "bob" "alice"],
      plan.applicableConditions = applicableConditions plan.backendId ∧
        plan.conditionAggregation = defaultConditionAggregation plan.applicableConditions := by
    decide +kernel
  refine ⟨resolution_least _ _ _ _ _ (fun plan member => ⟨plan.backendId,each plan member⟩) (by decide +kernel)
    (by decide +kernel) (by decide +kernel),by decide +kernel⟩

end Proofstorm.Readiness
