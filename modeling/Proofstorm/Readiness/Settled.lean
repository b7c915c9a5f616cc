import Proofstorm.Readiness.Conditions
import Proofstorm.Waiting

/-!
What the passes over a cell's statuses settle. Every step keeps the types of a
component's conditions and, but for the two it is about, their states. With these
others true, a component is ready after a pass exactly when what it waits for was ready
before it, so that passes are the rounds in which things that wait for each other are
settled.
-/
namespace Proofstorm.Readiness
open Proofstorm.Core Publication Plans

/-! ### Contracts -/

/-- A plan with the conditions of an installed contract. -/
def Contracted (plan : ComponentPlanContract) : Prop :=
  ∃ backend, plan.applicableConditions = applicableConditions backend ∧
    plan.conditionAggregation = defaultConditionAggregation plan.applicableConditions

/-- The conditions of a component before they are sorted come in order. -/
theorem applicable_sorted (backend : String) :
    (((applicableConditions backend).filter (· ≠ .componentReady)) ++ [ComponentConditionType.componentReady]).insertionSort
      (fun a b => a.rank ≤ b.rank) = applicableConditions backend := by
  obtain ⟨storage,credentials,service,dependencies,shape⟩ := applicableConditions_cases backend
  rw [shape]
  clear shape
  revert storage credentials service dependencies
  decide

theorem applicable_nodup (backend : String) : (applicableConditions backend).Nodup := by
  obtain ⟨storage,credentials,service,dependencies,shape⟩ := applicableConditions_cases backend
  rw [shape]
  clear shape
  revert storage credentials service dependencies
  decide

theorem componentReady_applicable (backend : String) : .componentReady ∈ applicableConditions backend := by
  obtain ⟨storage,credentials,service,dependencies,shape⟩ := applicableConditions_cases backend
  rw [shape]
  clear shape
  revert storage credentials service dependencies
  decide

section
variable {plan : ComponentPlanContract}

theorem Contracted.nodup (contracted : Contracted plan) : plan.applicableConditions.Nodup := by
  obtain ⟨backend,applicable,_⟩ := contracted
  rw [applicable]
  exact applicable_nodup backend

theorem Contracted.componentReady (contracted : Contracted plan) : .componentReady ∈ plan.applicableConditions := by
  obtain ⟨backend,applicable,_⟩ := contracted
  rw [applicable]
  exact componentReady_applicable backend

theorem dependent_iff : plan.dependent = true ↔ .dependenciesReady ∈ plan.applicableConditions := by
  rw [ComponentPlanContract.dependent,List.contains_iff_mem]

/-- What makes a component ready of an installed contract. -/
def readyConditions (plan : ComponentPlanContract) : List ComponentConditionType :=
  [.workloadReady,.storageReady,.serviceReady,.protocolReady,.dependenciesReady].filter
    plan.applicableConditions.contains

theorem mem_readyConditions {wanted : ComponentConditionType} (required : wanted ∈ readyConditions plan) :
    wanted ∈ plan.applicableConditions ∧ wanted ≠ .componentReady := by
  obtain ⟨listed,applicable⟩ := List.mem_filter.mp required
  refine ⟨List.contains_iff_mem.mp applicable,?_⟩
  rintro rfl
  revert listed
  decide

theorem dependenciesReady_required (dependent : plan.dependent = true) : .dependenciesReady ∈ readyConditions plan :=
  List.mem_filter.mpr ⟨by decide,dependent⟩

theorem Contracted.aggregations (contracted : Contracted plan) :
    plan.conditionAggregation = [⟨.componentReady,readyConditions plan⟩] := by
  obtain ⟨_,_,aggregation⟩ := contracted
  exact aggregation

/-! ### What every step keeps -/

variable {resources : ComponentObservationResources} {previous statuses : List ComponentStatus} {stopped : Bool}
  {now : Int} {status : ComponentStatus}

theorem types_atomic (applicable : List ComponentConditionType) :
    types (applicable.filterMap fun conditionType => (readingOf plan resources stopped conditionType).map fun reading =>
      componentCondition conditionType reading.state reading.reason reading.message now) =
      applicable.filter (· ≠ .componentReady) := by
  induction applicable with
  | nil => rfl
  | cons first rest ih =>
    cases first <;> cases stopped <;> simpa [types,readingOf,componentCondition] using ih

/-- Nothing is known of a component's dependencies from observing it alone. -/
theorem dependencies_unobserved (plan : ComponentPlanContract) (resources : ComponentObservationResources)
    (stopped : Bool) (now : Int) (dependent : plan.dependent = true) :
    stateOf (observeAtomicConditions plan resources stopped now) .dependenciesReady = .unknown := by
  have typed : types (observeAtomicConditions plan resources stopped now) =
      plan.applicableConditions.filter (· ≠ .componentReady) := types_atomic plan.applicableConditions
  have present : .dependenciesReady ∈ types (observeAtomicConditions plan resources stopped now) := by
    rw [typed]
    exact List.mem_filter.mpr ⟨dependent_iff.mp dependent,by decide⟩
  obtain ⟨condition,found⟩ := Option.isSome_iff_exists.mp (conditionOf_isSome present)
  have observed := List.mem_of_find?_eq_some found
  have about : condition.conditionType = .dependenciesReady := by simpa using List.find?_some found
  obtain ⟨conditionType,_,read⟩ := List.mem_filterMap.mp observed
  obtain ⟨reading,read,rfl⟩ := Option.map_eq_some_iff.mp read
  rw [componentCondition] at about
  dsimp only at about
  rw [about] at read
  rw [stateOf,found]
  exact congrArg ComponentCondition.state (Option.some.inj read).symm

/-- The conditions of a component are those of its contract, and what is observed of it
    alone stands. -/
structure Kept (resources : ComponentObservationResources) (now : Int) (stopped : Bool) (plan : ComponentPlanContract)
    (status : ComponentStatus) : Prop where
  id : status.id = plan.componentId
  types : types status.conditions = plan.applicableConditions
  others : ∀ wanted ∈ plan.applicableConditions, wanted ≠ .dependenciesReady → wanted ≠ .componentReady →
    stateOf status.conditions wanted = stateOf (observeAtomicConditions plan resources stopped now) wanted

/-- What a component is first ready by, before any pass. -/
theorem observeComponent_spec (resources : ComponentObservationResources) (previous : List ComponentStatus)
    (stopped : Bool) (now : Int) (contracted : Contracted plan) :
    Kept resources now stopped plan (observeComponent plan resources previous stopped now) ∧
      (∀ wanted ∈ plan.applicableConditions, wanted ≠ .componentReady →
        stateOf (observeComponent plan resources previous stopped now).conditions wanted =
          stateOf (observeAtomicConditions plan resources stopped now) wanted) ∧
      readyState (observeComponent plan resources previous stopped now) =
        aggregateConditionState (readyConditions plan) (observeAtomicConditions plan resources stopped now) := by
  have atomic : types (observeAtomicConditions plan resources stopped now) =
      plan.applicableConditions.filter (· ≠ .componentReady) := types_atomic plan.applicableConditions
  let ready := aggregatedCondition .componentReady
    (aggregateConditionState (readyConditions plan) (observeAtomicConditions plan resources stopped now)) stopped now
  let all := observeAtomicConditions plan resources stopped now ++ [ready]
  have aggregated : aggregateConditions plan.conditionAggregation stopped now
      (observeAtomicConditions plan resources stopped now) = all := by
    rw [contracted.aggregations]
    rfl
  have typed : types (sortConditions all) = plan.applicableConditions := by
    obtain ⟨backend,applicable,_⟩ := contracted
    have sorted := applicable_sorted backend
    rw [← applicable,← atomic] at sorted
    rw [types_sortConditions,← sorted]
    simp only [all,types,List.map_append,List.map_cons,List.map_nil,ready,aggregatedCondition_type]
  have distinct : (types (sortConditions all)).Nodup := typed ▸ contracted.nodup
  have whole : dedupConditions (sortConditions all) = sortConditions all := dedupConditions_eq distinct
  have conditions : types (observeComponent plan resources previous stopped now).conditions = plan.applicableConditions ∧
      ∀ wanted, stateOf (observeComponent plan resources previous stopped now).conditions wanted = stateOf all wanted := by
    unfold observeComponent ComponentStatus.deriveReady
    dsimp only
    rw [aggregated,whole]
    have states : ∀ wanted, stateOf (sortConditions all) wanted = stateOf all wanted :=
      fun wanted => stateOf_perm distinct (sortConditions_perm all)
    split
    · exact ⟨(types_preserve _ _).trans typed,fun wanted => (stateOf_preserve _ _ wanted).trans (states wanted)⟩
    · exact ⟨typed,states⟩
  have alone : ∀ wanted ∈ plan.applicableConditions, wanted ≠ .componentReady →
      stateOf (observeComponent plan resources previous stopped now).conditions wanted =
        stateOf (observeAtomicConditions plan resources stopped now) wanted := by
    intro wanted applicable different
    rw [conditions.2,stateOf_append_of_mem]
    rw [atomic]
    exact List.mem_filter.mpr ⟨applicable,by simpa using different⟩
  refine ⟨⟨rfl,conditions.1,fun wanted applicable _ => alone wanted applicable⟩,alone,?_⟩
  have absent : conditionOf (observeAtomicConditions plan resources stopped now) .componentReady = none := by
    refine List.find?_eq_none.mpr fun condition member => ?_
    have typed : condition.conditionType ∈ types (observeAtomicConditions plan resources stopped now) :=
      List.mem_map_of_mem member
    rw [atomic] at typed
    simpa using (List.mem_filter.mp typed).2
  have found : conditionOf all .componentReady = some ready := by
    simp only [conditionOf] at absent ⊢
    rw [List.find?_append,absent,Option.none_or]
    simp [ready]
  rw [readyState,conditions.2,stateOf,found]
  simp only [ready,aggregatedCondition_state,Option.map_some,Option.getD_some]

/-- What one pass makes of one component. -/
theorem resolveComponent_spec (prior : List (String × ComponentConditionState)) (down : List String)
    (contracted : Contracted plan) (kept : Kept resources now stopped plan status) :
    Kept resources now stopped plan (Readiness.resolveComponent prior down now plan status) ∧
      (plan.dependent = false → Readiness.resolveComponent prior down now plan status = status) ∧
      (plan.dependent = true →
        stateOf (Readiness.resolveComponent prior down now plan status).conditions .dependenciesReady =
          aggregateStates (plan.relevantLinks.map fun link => priorState prior link.to) ∧
        readyState (Readiness.resolveComponent prior down now plan status) =
          aggregateConditionState (readyConditions plan)
            (Readiness.resolveComponent prior down now plan status).conditions) := by
  by_cases dependent : plan.dependent
  · let state := aggregateStates (plan.relevantLinks.map fun link => priorState prior link.to)
    let first := replaceCondition status.conditions (dependenciesCondition state now)
    let ready := aggregatedCondition .componentReady (aggregateConditionState (readyConditions plan) first)
      (down.contains plan.componentId) now
    have resolved : Readiness.resolveComponent prior down now plan status =
        { status with conditions := replaceCondition first ready } := by
      simp only [Readiness.resolveComponent,dependent,if_true,recomputeComponentReady,contracted.aggregations,
        List.find?_cons,beq_self_eq_true]
      rfl
    have dependencies : (dependenciesCondition state now).conditionType ∈ types status.conditions := by
      rw [dependenciesCondition_type,kept.types]
      exact dependent_iff.mp dependent
    have typed : types first = plan.applicableConditions := (types_replaceCondition dependencies).trans kept.types
    have present : ready.conditionType ∈ types first := by
      rw [aggregatedCondition_type,typed]
      exact contracted.componentReady
    have states : ∀ wanted, stateOf (replaceCondition first ready) wanted =
        if .componentReady = wanted then aggregateConditionState (readyConditions plan) first
        else if .dependenciesReady = wanted then state else stateOf status.conditions wanted := by
      intro wanted
      rw [stateOf_replaceCondition present,stateOf_replaceCondition dependencies]
      simp only [ready,aggregatedCondition_type,aggregatedCondition_state,dependenciesCondition_type,
        dependenciesCondition_state]
    rw [resolved]
    refine ⟨⟨kept.id,(types_replaceCondition present).trans typed,?_⟩,fun independent => ?_,fun _ => ⟨?_,?_⟩⟩
    · intro wanted applicable other unready
      rw [states,if_neg (Ne.symm unready),if_neg (Ne.symm other)]
      exact kept.others wanted applicable other unready
    · rw [dependent] at independent
      cases independent
    · rw [states,if_neg (by decide),if_pos rfl]
    · rw [readyState,states,if_pos rfl]
      refine congrArg aggregateStates (List.map_congr_left fun wanted required => ?_)
      rw [stateOf_replaceCondition present,aggregatedCondition_type,
        if_neg (Ne.symm (mem_readyConditions required).2)]
  · have same : Readiness.resolveComponent prior down now plan status = status := by
      rw [Readiness.resolveComponent,if_neg dependent]
    rw [same]
    exact ⟨kept,fun _ => rfl,fun contrary => absurd contrary dependent⟩

theorem finishStatus_spec : (finishStatus previous status).id = status.id ∧
    types (finishStatus previous status).conditions = types status.conditions ∧
    (∀ wanted, stateOf (finishStatus previous status).conditions wanted = stateOf status.conditions wanted) := by
  unfold finishStatus ComponentStatus.deriveReady
  split
  · exact ⟨rfl,types_preserve _ _,fun wanted => stateOf_preserve _ _ wanted⟩
  · exact ⟨rfl,rfl,fun _ => rfl⟩

theorem finishStatus_ready (distinct : (types status.conditions).Nodup) :
    (finishStatus previous status).ready = true ↔ readyState status = .true := by
  obtain ⟨_,typed,states⟩ := @finishStatus_spec previous status
  have derived : (finishStatus previous status).ready = ((finishStatus previous status).conditions.any fun condition =>
      condition.conditionType == .componentReady && condition.state == .true) := by
    unfold finishStatus ComponentStatus.deriveReady
    split <;> rfl
  rw [readyState,← states,derived,List.any_eq_true]
  rw [← typed] at distinct
  constructor
  · rintro ⟨condition,member,marked⟩
    simp only [Bool.and_eq_true,beq_iff_eq] at marked
    rw [stateOf,(conditionOf_eq_some distinct).mpr ⟨member,marked.1⟩]
    exact marked.2
  · intro marked
    cases found : conditionOf (finishStatus previous status).conditions .componentReady with
    | none =>
      rw [stateOf,found] at marked
      cases marked
    | some condition =>
      obtain ⟨member,typed⟩ := (conditionOf_eq_some distinct).mp found
      rw [stateOf,found] at marked
      exact ⟨condition,member,by simpa [typed] using marked⟩

end

end Proofstorm.Readiness
