import Proofstorm.Readiness.Verdicts
import Proofstorm.Readiness.Rounds

/-!
The passes solve the equations. Every pass is one application of them to what the pass
before left, whether the links run in circles or not, so that the passes end at what is
forced, and at the same statuses whatever order the plans and their links come in.
-/
namespace Proofstorm.Readiness
open Proofstorm.Core Publication Plans Ascent

/-! ### One component -/

/-- What is known of a component before the first pass. -/
structure Fresh (plan : ComponentPlanContract) (status : ComponentStatus) : Prop where
  contracted : Contracted plan
  id : status.id = plan.componentId
  types : types status.conditions = plan.applicableConditions
  waiting : plan.dependent = true → stateOf status.conditions .dependenciesReady = .unknown
  ready : readyState status = aggregateConditionState (readyConditions plan) status.conditions

/-- What a component is ready by, from the states of its conditions. -/
def nodeOf (plan : ComponentPlanContract) (states : ComponentConditionType → ComponentConditionState) : Node where
  observed := (((readyConditions plan).filter (· ≠ .dependenciesReady)).map states).toFinset
  targets := if plan.dependent then some (plan.relevantLinks.map LinkSpec.to).toFinset else none

/-- A component of one pass, over what its dependencies come to. -/
def settledBy (down : List String) (now : Int) (plan : ComponentPlanContract) (state : ComponentConditionState)
    (status : ComponentStatus) : ComponentStatus :=
  if plan.dependent then
    { status with
      conditions := recomputeComponentReady plan (replaceCondition status.conditions (dependenciesCondition state now))
        (down.contains plan.componentId) now }
  else status

theorem resolveComponent_eq (prior : List (String × ComponentConditionState)) (down : List String) (now : Int)
    (plan : ComponentPlanContract) (status : ComponentStatus) :
    Readiness.resolveComponent prior down now plan status =
      settledBy down now plan (aggregateStates (plan.relevantLinks.map fun link => priorState prior link.to)) status := rfl

section
variable {plan : ComponentPlanContract} {status : ComponentStatus} {conditions : List ComponentCondition}
  {replacement : ComponentCondition} {down : List String} {now : Int} {state : ComponentConditionState}

@[simp] theorem settledBy_id : (settledBy down now plan state status).id = status.id := by
  unfold settledBy
  split_ifs <;> rfl

theorem settledBy_independent (independent : plan.dependent = false) : settledBy down now plan state status = status := by
  rw [settledBy,independent]
  rfl

/-- The states a component is ready by. -/
theorem ready_nodeOf (plan : ComponentPlanContract) (states : ComponentConditionType → ComponentConditionState) :
    (nodeOf plan states).ready (states .dependenciesReady) = conjunction ((readyConditions plan).map states).toFinset := by
  symm
  unfold nodeOf Node.ready
  cases dependent : plan.dependent with
  | true =>
    simp only [if_true]
    congr 1
    ext other
    simp only [List.mem_toFinset,List.mem_map,Finset.mem_insert,List.mem_filter,decide_eq_true_eq]
    constructor
    · rintro ⟨wanted,required,rfl⟩
      by_cases waiting : wanted = .dependenciesReady
      · exact .inl (waiting ▸ rfl)
      · exact .inr ⟨wanted,⟨required,waiting⟩,rfl⟩
    · rintro (rfl | ⟨wanted,⟨required,_⟩,rfl⟩)
      · exact ⟨_,dependenciesReady_required dependent,rfl⟩
      · exact ⟨wanted,required,rfl⟩
  | false =>
    simp only [Bool.false_eq_true,if_false]
    congr 2
    rw [List.filter_eq_self.mpr]
    intro wanted required
    rw [decide_eq_true_eq]
    rintro rfl
    have applicable := dependent_iff.mpr (mem_readyConditions required).1
    rw [dependent] at applicable
    cases applicable

theorem aggregate_eq (plan : ComponentPlanContract) (conditions : List ComponentCondition) :
    aggregateConditionState (readyConditions plan) conditions =
      (nodeOf plan (stateOf conditions)).ready (stateOf conditions .dependenciesReady) := by
  rw [aggregateConditionState,aggregateStates_eq,ready_nodeOf]

/-- Replacing a condition of distinct ones. -/
theorem replaceCondition_eq_map (distinct : (types conditions).Nodup)
    (present : replacement.conditionType ∈ types conditions) : replaceCondition conditions replacement =
      conditions.map fun condition => if condition.conditionType = replacement.conditionType then replacement else condition := by
  rw [replaceCondition_present present]
  clear present
  induction conditions with
  | nil => rfl
  | cons first rest ih =>
    obtain ⟨fresh,rest_distinct⟩ := List.nodup_cons.mp distinct
    rw [replaceCondition.replaceFirst,List.map_cons]
    split_ifs with here
    · have untouched : ∀ condition ∈ rest, (if condition.conditionType = replacement.conditionType then replacement
          else condition) = condition := by
        intro condition member
        refine if_neg fun same => fresh ?_
        rw [here,← same]
        exact List.mem_map_of_mem member
      rw [List.map_congr_left untouched,List.map_id']
    · rw [ih rest_distinct]

/-- The readiness that a state of its dependencies gives a component. -/
def readyOf (down : List String) (now : Int) (plan : ComponentPlanContract) (state : ComponentConditionState)
    (conditions : List ComponentCondition) : ComponentCondition :=
  aggregatedCondition .componentReady ((nodeOf plan (stateOf conditions)).ready state) (down.contains plan.componentId) now

/-- Only the states that a component is ready by without its dependencies matter. -/
theorem nodeOf_congr {states others : ComponentConditionType → ComponentConditionState}
    (same : ∀ wanted ∈ readyConditions plan, wanted ≠ .dependenciesReady → states wanted = others wanted) :
    nodeOf plan states = nodeOf plan others := by
  unfold nodeOf
  congr 2
  refine List.map_congr_left fun wanted member => ?_
  obtain ⟨required,other⟩ := List.mem_filter.mp member
  exact same wanted required (of_decide_eq_true other)

/-- A dependent component's conditions are replaced one after the other, each in its place. -/
theorem settledBy_dependent (down : List String) (now : Int) (state : ComponentConditionState) (contracted : Contracted plan)
    (typed : types status.conditions = plan.applicableConditions) (dependent : plan.dependent = true) :
    (dependenciesCondition state now).conditionType ∈ types status.conditions ∧
    (readyOf down now plan state status.conditions).conditionType ∈
      types (replaceCondition status.conditions (dependenciesCondition state now)) ∧
    (settledBy down now plan state status).conditions = replaceCondition
      (replaceCondition status.conditions (dependenciesCondition state now)) (readyOf down now plan state status.conditions) := by
  have waits : (dependenciesCondition state now).conditionType ∈ types status.conditions := by
    rw [dependenciesCondition_type,typed]
    exact dependent_iff.mp dependent
  have states : ∀ wanted, stateOf (replaceCondition status.conditions (dependenciesCondition state now)) wanted =
      if .dependenciesReady = wanted then state else stateOf status.conditions wanted := by
    intro wanted
    rw [stateOf_replaceCondition waits,dependenciesCondition_type,dependenciesCondition_state]
  have ready : aggregateConditionState (readyConditions plan)
      (replaceCondition status.conditions (dependenciesCondition state now)) =
      (nodeOf plan (stateOf status.conditions)).ready state := by
    rw [aggregate_eq,states,if_pos rfl,nodeOf_congr]
    intro wanted _ other
    rw [states,if_neg (Ne.symm other)]
  refine ⟨waits,?_,?_⟩
  · rw [readyOf,aggregatedCondition_type,types_replaceCondition waits,typed]
    exact contracted.componentReady
  · rw [settledBy,if_pos dependent,readyOf,← ready]
    simp only [recomputeComponentReady,contracted.aggregations,List.find?_cons,beq_self_eq_true]

theorem settledBy_map (down : List String) (now : Int) (state : ComponentConditionState) (contracted : Contracted plan)
    (typed : types status.conditions = plan.applicableConditions) (dependent : plan.dependent = true) :
    (settledBy down now plan state status).conditions =
      status.conditions.map fun condition =>
        if condition.conditionType = .componentReady then readyOf down now plan state status.conditions
        else if condition.conditionType = .dependenciesReady then dependenciesCondition state now else condition := by
  have distinct : (types status.conditions).Nodup := typed ▸ contracted.nodup
  obtain ⟨waits,present,shape⟩ := settledBy_dependent down now state contracted typed dependent
  have still : (types (replaceCondition status.conditions (dependenciesCondition state now))).Nodup :=
    (types_replaceCondition waits).symm ▸ distinct
  rw [shape,replaceCondition_eq_map still present,replaceCondition_eq_map distinct waits,List.map_map]
  refine List.map_congr_left fun condition _ => ?_
  simp only [Function.comp_apply,dependenciesCondition_type,readyOf,aggregatedCondition_type]
  by_cases waiting : condition.conditionType = .dependenciesReady
  · simp [waiting]
  · simp only [if_neg waiting]

/-- What settling makes of the states of a component. -/
theorem settledBy_spec (down : List String) (now : Int) (state : ComponentConditionState) (contracted : Contracted plan)
    (typed : types status.conditions = plan.applicableConditions) :
    types (settledBy down now plan state status).conditions = plan.applicableConditions ∧
      (∀ wanted, wanted ≠ .componentReady → wanted ≠ .dependenciesReady →
        stateOf (settledBy down now plan state status).conditions wanted = stateOf status.conditions wanted) ∧
      (plan.dependent = true →
        stateOf (settledBy down now plan state status).conditions .dependenciesReady = state ∧
        readyState (settledBy down now plan state status) = (nodeOf plan (stateOf status.conditions)).ready state) := by
  cases dependent : plan.dependent with
  | false =>
    rw [settledBy_independent dependent]
    refine ⟨typed,fun _ _ _ => rfl,fun contrary => ?_⟩
    cases contrary
  | true =>
    obtain ⟨waits,present,shape⟩ := settledBy_dependent down now state contracted typed dependent
    have states : ∀ wanted, stateOf (settledBy down now plan state status).conditions wanted =
        if .componentReady = wanted then (nodeOf plan (stateOf status.conditions)).ready state
        else if .dependenciesReady = wanted then state else stateOf status.conditions wanted := by
      intro wanted
      rw [shape,stateOf_replaceCondition present,stateOf_replaceCondition waits]
      simp only [readyOf,aggregatedCondition_type,aggregatedCondition_state,dependenciesCondition_type,
        dependenciesCondition_state]
    refine ⟨?_,fun wanted unready other => ?_,fun _ => ⟨?_,?_⟩⟩
    · rw [shape,types_replaceCondition present,types_replaceCondition waits,typed]
    · rw [states,if_neg (Ne.symm unready),if_neg (Ne.symm other)]
    · rw [states,if_neg (by decide),if_pos rfl]
    · rw [readyState,states,if_pos rfl]

theorem nodeOf_settledBy (state : ComponentConditionState) (contracted : Contracted plan)
    (typed : types status.conditions = plan.applicableConditions) :
    nodeOf plan (stateOf (settledBy down now plan state status).conditions) = nodeOf plan (stateOf status.conditions) :=
  nodeOf_congr fun wanted required other =>
    (settledBy_spec down now state contracted typed).2.1 wanted (mem_readyConditions required).2 other

/-- A settled component is ready by the conditions it has then. -/
theorem settledBy_aggregated (down : List String) (now : Int) (state : ComponentConditionState) (fresh : Fresh plan status) :
    readyState (settledBy down now plan state status) =
      aggregateConditionState (readyConditions plan) (settledBy down now plan state status).conditions := by
  obtain ⟨contracted,_,typed,_,ready⟩ := fresh
  cases dependent : plan.dependent with
  | false => rw [settledBy_independent dependent,ready]
  | true =>
    obtain ⟨waiting,made⟩ := (settledBy_spec down now state contracted typed).2.2 dependent
    rw [made,aggregate_eq,waiting,nodeOf_settledBy state contracted typed]

/-- Settling again leaves nothing of how it was settled before. -/
theorem settledBy_settledBy (state later : ComponentConditionState) (contracted : Contracted plan)
    (typed : types status.conditions = plan.applicableConditions) :
    settledBy down now plan later (settledBy down now plan state status) = settledBy down now plan later status := by
  cases dependent : plan.dependent with
  | false => simp only [settledBy_independent dependent]
  | true =>
    have ready : readyOf down now plan later (settledBy down now plan state status).conditions =
        readyOf down now plan later status.conditions := by
      rw [readyOf,nodeOf_settledBy state contracted typed]
      rfl
    have conditions : (settledBy down now plan later (settledBy down now plan state status)).conditions =
        (settledBy down now plan later status).conditions := by
      rw [settledBy_map down now later contracted (settledBy_spec down now state contracted typed).1 dependent,ready,
        settledBy_map down now state contracted typed dependent,settledBy_map down now later contracted typed dependent,
        List.map_map]
      refine List.map_congr_left fun condition _ => ?_
      simp only [Function.comp_apply]
      by_cases ready : condition.conditionType = .componentReady
      · simp [ready,readyOf]
      · by_cases waiting : condition.conditionType = .dependenciesReady
        · simp [waiting]
        · simp only [if_neg ready,if_neg waiting]
    simp only [settledBy,dependent,if_true] at conditions ⊢
    rw [conditions]

/-! ### A pass over the cell -/

/-- The components of a cell with their plans. -/
abbrev Pairs := List (ComponentPlanContract × ComponentStatus)

/-- What the cell's components are ready by. -/
def networkOf (pairs : Pairs) : Network := fun id =>
  (pairs.map fun pair => (pair.1.componentId,nodeOf pair.1 (stateOf pair.2.conditions))).lookup id

def idsOf (pairs : Pairs) : Finset String := (pairs.map fun pair => pair.1.componentId).toFinset

/-- All components settled by what is said of their dependencies. -/
def standing (down : List String) (now : Int) (dependencies : String → ComponentConditionState) (pairs : Pairs) :
    List ComponentStatus :=
  pairs.map fun pair => settledBy down now pair.1 (dependencies pair.1.componentId) pair.2

/-- Statuses as ready as what is said of their dependencies makes them, and that settle as
    the first ones do. -/
def Stands (down : List String) (now : Int) (pairs : Pairs) (dependencies : String → ComponentConditionState)
    (statuses : List ComponentStatus) : Prop :=
  ∃ current : ComponentPlanContract × ComponentStatus → ComponentStatus, statuses = pairs.map current ∧ ∀ pair ∈ pairs,
    (current pair).id = pair.1.componentId ∧
    readyState (current pair) = readiness (networkOf pairs) dependencies pair.1.componentId ∧
    ∀ state, settledBy down now pair.1 state (current pair) = settledBy down now pair.1 state pair.2

section
variable {pairs : Pairs} {dependencies : String → ComponentConditionState} {statuses : List ComponentStatus}

theorem lookup_of_pair {β : Type} (value : ComponentPlanContract × ComponentStatus → β)
    (distinct : (pairs.map fun pair => pair.1.componentId).Nodup) {pair : ComponentPlanContract × ComponentStatus}
    (member : pair ∈ pairs) :
    (pairs.map fun pair => (pair.1.componentId,value pair)).lookup pair.1.componentId = some (value pair) := by
  have listed : (pair.1.componentId,value pair) ∈ pairs.map fun pair => (pair.1.componentId,value pair) :=
    List.mem_map.mpr ⟨pair,member,rfl⟩
  refine Entries.lookup_of_mem listed ?_
  rw [List.map_map]
  exact distinct

theorem lookup_of_away {β : Type} (value : ComponentPlanContract × ComponentStatus → β) {id : String}
    (away : id ∉ idsOf pairs) : (pairs.map fun pair => (pair.1.componentId,value pair)).lookup id = none := by
  refine List.lookup_eq_none_iff.mpr fun entry member => ?_
  obtain ⟨pair,there,rfl⟩ := List.mem_map.mp member
  rw [bne_iff_ne]
  rintro rfl
  exact away (List.mem_toFinset.mpr (List.mem_map_of_mem there))

theorem networkOf_of_mem (distinct : (pairs.map fun pair => pair.1.componentId).Nodup)
    {pair : ComponentPlanContract × ComponentStatus} (member : pair ∈ pairs) :
    networkOf pairs pair.1.componentId = some (nodeOf pair.1 (stateOf pair.2.conditions)) :=
  lookup_of_pair (fun pair => nodeOf pair.1 (stateOf pair.2.conditions)) distinct member

theorem networkOf_inside (id : String) (known : networkOf pairs id ≠ none) : id ∈ idsOf pairs := by
  by_contra away
  exact known (lookup_of_away _ away)

theorem stands_first (fresh : ∀ pair ∈ pairs, Fresh pair.1 pair.2)
    (distinct : (pairs.map fun pair => pair.1.componentId).Nodup) :
    Stands down now pairs ⊥ (pairs.map Prod.snd) := by
  refine ⟨Prod.snd,rfl,fun pair member => ⟨(fresh pair member).id,?_,fun _ => rfl⟩⟩
  obtain ⟨contracted,_,_,waiting,ready⟩ := fresh pair member
  rw [ready,aggregate_eq,readiness,networkOf_of_mem distinct member]
  dsimp only
  cases dependent : pair.1.dependent with
  | true =>
    rw [waiting dependent]
    rfl
  | false =>
    have alone : (nodeOf pair.1 (stateOf pair.2.conditions)).targets = none := by
      rw [nodeOf,dependent]
      rfl
    simp only [Node.ready,alone]

/-- A settled component is as ready as the equations make it. -/
theorem settledBy_ready (down : List String) (now : Int) (fresh : ∀ pair ∈ pairs, Fresh pair.1 pair.2)
    (distinct : (pairs.map fun pair => pair.1.componentId).Nodup) (dependencies : String → ComponentConditionState)
    {pair : ComponentPlanContract × ComponentStatus} (member : pair ∈ pairs) :
    readyState (settledBy down now pair.1 (dependencies pair.1.componentId) pair.2) =
      readiness (networkOf pairs) dependencies pair.1.componentId := by
  obtain ⟨contracted,_,typed,_,ready⟩ := fresh pair member
  rw [readiness,networkOf_of_mem distinct member]
  dsimp only
  cases dependent : pair.1.dependent with
  | true => exact ((settledBy_spec down now _ contracted typed).2.2 dependent).2
  | false =>
    have alone : (nodeOf pair.1 (stateOf pair.2.conditions)).targets = none := by
      rw [nodeOf,dependent]
      rfl
    rw [settledBy_independent dependent,ready,aggregate_eq]
    simp only [Node.ready,alone]

theorem stands_standing (down : List String) (now : Int) (fresh : ∀ pair ∈ pairs, Fresh pair.1 pair.2)
    (distinct : (pairs.map fun pair => pair.1.componentId).Nodup) (dependencies : String → ComponentConditionState) :
    Stands down now pairs dependencies (standing down now dependencies pairs) := by
  refine ⟨_,rfl,fun pair member => ⟨?_,settledBy_ready down now fresh distinct dependencies member,fun state => ?_⟩⟩
  · exact settledBy_id.trans (fresh pair member).id
  · exact settledBy_settledBy _ state (fresh pair member).contracted (fresh pair member).types

/-- The pass before is looked up as the equations are. -/
theorem priorState_of_stands (distinct : (pairs.map fun pair => pair.1.componentId).Nodup)
    (stands : Stands down now pairs dependencies statuses) (id : String) :
    priorState (priorPass statuses) id = readiness (networkOf pairs) dependencies id := by
  obtain ⟨current,rfl,each⟩ := stands
  have entries : priorPass (pairs.map current) = pairs.map fun pair =>
      (pair.1.componentId,readiness (networkOf pairs) dependencies pair.1.componentId) := by
    rw [priorPass,List.map_map]
    refine List.map_congr_left fun pair member => ?_
    obtain ⟨named,ready,_⟩ := each pair member
    rw [Function.comp_apply,named,ready]
  have keys : ((priorPass (pairs.map current)).map Prod.fst).Nodup := by
    rw [entries,List.map_map]
    exact distinct
  rw [priorState,← Entries.lookup_perm (List.reverse_perm _).symm keys,entries]
  by_cases inside : id ∈ idsOf pairs
  · obtain ⟨pair,member,rfl⟩ := List.mem_map.mp (List.mem_toFinset.mp inside)
    rw [lookup_of_pair _ distinct member,Option.getD_some]
  · have absent : networkOf pairs id = none := lookup_of_away _ inside
    rw [lookup_of_away _ inside,readiness,absent]
    rfl

/-- A pass applies the equations once. -/
theorem pass_of_stands (distinct : (pairs.map fun pair => pair.1.componentId).Nodup)
    (stands : Stands down now pairs dependencies statuses) :
    resolvePass (pairs.map Prod.fst) down now statuses = standing down now (waits (networkOf pairs) dependencies) pairs := by
  have prior := priorState_of_stands distinct stands
  obtain ⟨current,shape,each⟩ := stands
  rw [resolvePass,shape,List.zipWith_map,List.zipWith_self,standing]
  refine List.map_congr_left fun pair member => ?_
  rw [← shape,resolveComponent_eq,(each pair member).2.2]
  cases dependent : pair.1.dependent with
  | false => rw [settledBy_independent dependent,settledBy_independent dependent]
  | true =>
    congr 1
    have targets : (networkOf pairs pair.1.componentId).bind Node.targets =
        some (pair.1.relevantLinks.map LinkSpec.to).toFinset := by
      rw [networkOf_of_mem distinct member,Option.bind_some,nodeOf,dependent]
      rfl
    rw [aggregateStates_eq,waits,targets]
    dsimp only
    congr 1
    ext state
    simp only [List.mem_toFinset,List.mem_map,Finset.mem_image,prior]
    constructor
    · rintro ⟨link,carried,rfl⟩
      exact ⟨_,⟨link,carried,rfl⟩,rfl⟩
    · rintro ⟨_,⟨link,carried,rfl⟩,rfl⟩
      exact ⟨link,carried,rfl⟩

/-! ### All passes -/

/-- What is forced of the dependencies of a cell's components. -/
def forcedOf (pairs : Pairs) : String → ComponentConditionState := forced (networkOf pairs) (idsOf pairs)

/-- Statuses as ready as each other stand for dependencies as ready as each other. -/
theorem readiness_of_unchanged {others : List ComponentStatus} {later : String → ComponentConditionState}
    (first : Stands down now pairs dependencies statuses) (second : Stands down now pairs later others)
    (unchanged : others.map readyState = statuses.map readyState) :
    readiness (networkOf pairs) later = readiness (networkOf pairs) dependencies := by
  obtain ⟨before,rfl,each⟩ := first
  obtain ⟨after,rfl,each'⟩ := second
  rw [List.map_map,List.map_map,List.map_inj_left] at unchanged
  funext id
  by_cases inside : id ∈ idsOf pairs
  · obtain ⟨pair,member,rfl⟩ := List.mem_map.mp (List.mem_toFinset.mp inside)
    rw [← (each' pair member).2.1,← (each pair member).2.1]
    exact unchanged pair member
  · have absent : networkOf pairs id = none := lookup_of_away _ inside
    simp only [readiness,absent]

/-- A pass that changes no readiness was one too many, and the last one is not one too few. -/
theorem passes_of_stands (fresh : ∀ pair ∈ pairs, Fresh pair.1 pair.2)
    (distinct : (pairs.map fun pair => pair.1.componentId).Nodup) (passes rounds : Nat)
    (stands : Stands down now pairs ((waits (networkOf pairs))^[rounds] ⊥) statuses)
    (enough : (idsOf pairs).card ≤ rounds + (passes + 1)) :
    resolvePasses (pairs.map Prod.fst) down now (passes + 1) statuses = standing down now (forcedOf pairs) pairs := by
  have monotone : Monotone (waits (networkOf pairs)) := waits_mono
  have outside : ∀ d, ∀ id ∉ idsOf pairs, waits (networkOf pairs) d id = ⊥ := waits_outside networkOf_inside
  induction passes generalizing rounds statuses with
  | zero =>
    have last := iterate_eq_least monotone outside (n := rounds + 1) (.inr enough)
    have resolved := pass_of_stands distinct stands
    rw [← Function.iterate_succ_apply' (waits (networkOf pairs)),last] at resolved
    rw [resolvePasses,resolved]
    split_ifs
    · rfl
    · rfl
  | succ passes ih =>
    have resolved := pass_of_stands distinct stands
    rw [← Function.iterate_succ_apply' (waits (networkOf pairs))] at resolved
    have next := stands_standing down now fresh distinct ((waits (networkOf pairs))^[rounds + 1] ⊥)
    rw [resolvePasses,resolved]
    split_ifs with unchanged
    · have same := readiness_of_unchanged stands next unchanged
      rw [Function.iterate_succ_apply'] at same
      have fixed := waits_fixed_of_readiness same
      rw [← Function.iterate_succ_apply' (waits (networkOf pairs))] at fixed
      rw [iterate_eq_least monotone outside (.inl fixed)]
      rfl
    · exact ih (rounds + 1) next (by omega)

/-- As many passes as there are plans settle everything that is forced. -/
theorem passes_eq (fresh : ∀ pair ∈ pairs, Fresh pair.1 pair.2)
    (distinct : (pairs.map fun pair => pair.1.componentId).Nodup) {passes : Nat} (enough : pairs.length ≤ passes) :
    resolvePasses (pairs.map Prod.fst) down now passes (pairs.map Prod.snd) = standing down now (forcedOf pairs) pairs := by
  cases passes with
  | zero =>
    rw [Nat.le_zero,List.length_eq_zero_iff] at enough
    rw [enough]
    rfl
  | succ passes =>
    refine passes_of_stands fresh distinct passes 0 (stands_first fresh distinct) ?_
    rw [Nat.zero_add]
    exact ((List.toFinset_card_le _).trans (List.length_map _).le).trans enough

/-- Resolving leaves every component settled by what is forced. -/
theorem resolved_eq (previous : List ComponentStatus) (down : List String) (now : Int)
    (fresh : ∀ pair ∈ pairs, Fresh pair.1 pair.2) (distinct : (pairs.map fun pair => pair.1.componentId).Nodup) :
    resolveDependencyConditions (pairs.map Prod.fst) (pairs.map Prod.snd) previous down now =
      (standing down now (forcedOf pairs) pairs).map (finishStatus previous) := by
  rw [resolveDependencyConditions]
  split_ifs with idle
  · congr 1
    rw [resolvePasses,standing]
    refine List.map_congr_left fun pair member => (settledBy_independent ?_).symm
    rw [List.isEmpty_iff,List.filter_eq_nil_iff] at idle
    exact Bool.eq_false_iff.mpr (idle pair.1 (List.mem_map_of_mem member))
  · rw [passes_eq fresh distinct]
    rw [List.length_map]

end

end

end Proofstorm.Readiness
