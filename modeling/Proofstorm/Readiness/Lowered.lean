import Proofstorm.Readiness.Expiry
import Proofstorm.Readiness.Resolved

/-!
Statuses of a cell as expiry changes them, one at a time: each stays the status of its
plan with the conditions of its contract, and no condition becomes true.
-/
namespace Proofstorm.Readiness
open Proofstorm.Core Publication Plans

/-! ### The statuses of distinct plans -/

section
variable {plans : List ComponentPlanContract} {plan : ComponentPlanContract}
  {current : ComponentPlanContract → ProbedStatus} {change : ProbedStatus → ProbedStatus} {id : String}

theorem statusOf_of_plan (distinct : (plans.map ComponentPlanContract.componentId).Nodup)
    (named : ∀ plan ∈ plans, (current plan).id = plan.componentId) (member : plan ∈ plans) :
    statusOf (plans.map current) plan.componentId = some (current plan) := by
  have listed : current plan ∈ (plans.map current).reverse := List.mem_reverse.mpr (List.mem_map_of_mem member)
  cases search : statusOf (plans.map current) plan.componentId with
  | none =>
    have missed := List.find?_eq_none.mp search _ listed
    rw [named plan member] at missed
    exact absurd (beq_self_eq_true _) missed
  | some status =>
    obtain ⟨other,there,rfl⟩ := List.mem_map.mp (List.mem_reverse.mp (List.mem_of_find?_eq_some search))
    have same := List.find?_some search
    rw [beq_iff_eq,named other there] at same
    rw [List.inj_on_of_nodup_map distinct there member same]

theorem statusOf_of_away (named : ∀ plan ∈ plans, (current plan).id = plan.componentId)
    (away : ∀ plan ∈ plans, plan.componentId ≠ id) : statusOf (plans.map current) id = none := by
  refine List.find?_eq_none.mpr fun status member => ?_
  obtain ⟨plan,there,rfl⟩ := List.mem_map.mp (List.mem_reverse.mp member)
  rw [named plan there,beq_iff_eq]
  exact away plan there

/-- A change to the status of a plan, among those of all plans. -/
def changed (id : String) (change : ProbedStatus → ProbedStatus) (current : ComponentPlanContract → ProbedStatus)
    (plan : ComponentPlanContract) : ProbedStatus :=
  if plan.componentId = id then change (current plan) else current plan

theorem updateStatus_eq (distinct : (plans.map ComponentPlanContract.componentId).Nodup)
    (named : ∀ plan ∈ plans, (current plan).id = plan.componentId) :
    updateStatus id change (plans.map current) = plans.map (changed id change current) := by
  induction plans with
  | nil => rfl
  | cons first rest ih =>
    obtain ⟨fresh,rest_distinct⟩ := List.nodup_cons.mp distinct
    have rest_named : ∀ plan ∈ rest, (current plan).id = plan.componentId :=
      fun plan member => named plan (List.mem_cons_of_mem _ member)
    rw [List.map_cons,updateStatus,List.map_cons]
    split_ifs with later here
    · obtain ⟨status,member,is⟩ := List.any_eq_true.mp later
      obtain ⟨plan,there,rfl⟩ := List.mem_map.mp member
      rw [beq_iff_eq,rest_named plan there] at is
      have other : first.componentId ≠ id := fun same => fresh (List.mem_map.mpr ⟨plan,there,is.trans same.symm⟩)
      rw [ih rest_distinct rest_named,changed,if_neg other]
    · rw [named first List.mem_cons_self] at here
      have untouched : ∀ plan ∈ rest, changed id change current plan = current plan := by
        intro plan member
        refine if_neg fun same => fresh ?_
        rw [here,← same]
        exact List.mem_map_of_mem member
      rw [changed,if_pos here,List.map_congr_left untouched]
    · rw [named first List.mem_cons_self] at here
      have untouched : ∀ plan ∈ rest, changed id change current plan = current plan := by
        intro plan member
        refine if_neg fun same => later ?_
        refine List.any_eq_true.mpr ⟨_,List.mem_map_of_mem member,?_⟩
        rw [rest_named plan member,beq_iff_eq]
        exact same
      rw [changed,if_neg here,List.map_congr_left untouched]

theorem changed_self (member : plan.componentId = id) : changed id change current plan = change (current plan) :=
  if_pos member

theorem changed_other (other : plan.componentId ≠ id) : changed id change current plan = current plan := if_neg other

theorem readyIn_of_plan (distinct : (plans.map ComponentPlanContract.componentId).Nodup)
    (named : ∀ plan ∈ plans, (current plan).id = plan.componentId) (member : plan ∈ plans) :
    readyIn (plans.map current) plan.componentId = readyState (current plan).toComponentStatus := by
  rw [readyIn,statusOf_of_plan distinct named member]
  rfl

theorem planOf_distinct (distinct : (plans.map ComponentPlanContract.componentId).Nodup) (member : plan ∈ plans) :
    plans.reverse.find? (·.componentId == plan.componentId) = some plan := by
  cases search : plans.reverse.find? (·.componentId == plan.componentId) with
  | none =>
    have missed := List.find?_eq_none.mp search plan (List.mem_reverse.mpr member)
    exact absurd (beq_self_eq_true _) missed
  | some other =>
    have same := List.find?_some search
    rw [beq_iff_eq] at same
    rw [List.inj_on_of_nodup_map distinct (List.mem_reverse.mp (List.mem_of_find?_eq_some search)) member same]

end

/-! ### One status -/

/-- A status of a plan with the conditions of its contract, as ready as they make it. -/
structure Whole (plan : ComponentPlanContract) (status : ComponentStatus) : Prop where
  id : status.id = plan.componentId
  types : types status.conditions = plan.applicableConditions
  ready : readyState status = aggregateConditionState (readyConditions plan) status.conditions
  marked : status.ready = true ↔ readyState status = .true

/-- What expiry may make of a status. -/
structure Lower (before after : ProbedStatus) : Prop where
  timing : after.protocolObservation = before.protocolObservation
  stopped : after.stopped = before.stopped
  states : ∀ wanted, stateOf after.conditions wanted = .true → stateOf before.conditions wanted = .true

theorem Lower.refl (status : ProbedStatus) : Lower status status := ⟨rfl,rfl,fun _ holds => holds⟩

theorem Lower.trans {first second third : ProbedStatus} (lower : Lower first second) (lower' : Lower second third) :
    Lower first third :=
  ⟨lower'.timing.trans lower.timing,lower'.stopped.trans lower.stopped,
    fun wanted holds => lower.states wanted (lower'.states wanted holds)⟩

section
variable {plan : ComponentPlanContract} {status : ProbedStatus} {replacement : ComponentCondition} {now : Int}

/-- The readiness that a replaced condition leaves. -/
def readyAfter (plan : ComponentPlanContract) (replacement : ComponentCondition) (now : Int)
    (conditions : List ComponentCondition) : ComponentCondition :=
  aggregatedCondition .componentReady
    (aggregateConditionState (readyConditions plan) (replaceCondition conditions replacement)) false now

theorem replaced_conditions (replacement : ComponentCondition) (now : Int) (status : ProbedStatus)
    (contracted : Contracted plan) : (replaced plan replacement now status).conditions = preserveConditionTransitions
      (replaceCondition (replaceCondition status.conditions replacement)
        (readyAfter plan replacement now status.conditions)) status.conditions := by
  simp only [replaced,ComponentStatus.deriveReady,recomputeComponentReady,contracted.aggregations,List.find?_cons,
    beq_self_eq_true,readyAfter]

/-- What replacing a condition makes of the types and states of a component's conditions. -/
theorem replaced_states (now : Int) (contracted : Contracted plan)
    (typed : types status.conditions = plan.applicableConditions) (required : replacement.conditionType ∈ readyConditions plan) :
    types (replaced plan replacement now status).conditions = plan.applicableConditions ∧
      ∀ wanted, stateOf (replaced plan replacement now status).conditions wanted =
        if .componentReady = wanted then
          aggregateConditionState (readyConditions plan) (replaceCondition status.conditions replacement)
        else if replacement.conditionType = wanted then replacement.state else stateOf status.conditions wanted := by
  have present : replacement.conditionType ∈ types status.conditions := typed ▸ (mem_readyConditions required).1
  have kept : types (replaceCondition status.conditions replacement) = plan.applicableConditions :=
    (types_replaceCondition present).trans typed
  have ready : (readyAfter plan replacement now status.conditions).conditionType ∈
      types (replaceCondition status.conditions replacement) := by
    rw [readyAfter,aggregatedCondition_type,kept]
    exact contracted.componentReady
  rw [replaced_conditions replacement now status contracted]
  refine ⟨?_,fun wanted => ?_⟩
  · rw [types_preserve,types_replaceCondition ready,kept]
  · rw [stateOf_preserve,stateOf_replaceCondition ready,stateOf_replaceCondition present]
    simp only [readyAfter,aggregatedCondition_type,aggregatedCondition_state]

/-- A component is not ready by a condition that does not hold. -/
theorem not_ready_of_required {conditions : List ComponentCondition} {wanted : ComponentConditionType}
    (required : wanted ∈ readyConditions plan) (fails : stateOf conditions wanted ≠ .true) :
    aggregateConditionState (readyConditions plan) conditions ≠ .true := by
  intro holds
  rw [aggregateConditionState,aggregateStates_eq_true,List.forall_mem_map] at holds
  exact fails (holds wanted required)

/-- Replacing a condition that a component is ready by leaves it unready, and makes nothing true. -/
theorem replaced_whole (now : Int) (contracted : Contracted plan) (whole : Whole plan status.toComponentStatus)
    (required : replacement.conditionType ∈ readyConditions plan) (fails : replacement.state ≠ .true) :
    Whole plan (replaced plan replacement now status).toComponentStatus ∧
      readyState (replaced plan replacement now status).toComponentStatus ≠ .true ∧
      ∀ wanted, stateOf (replaced plan replacement now status).conditions wanted = .true →
        stateOf status.conditions wanted = .true := by
  obtain ⟨typed,states⟩ := replaced_states now contracted whole.types required
  have present : replacement.conditionType ∈ types status.conditions := whole.types ▸ (mem_readyConditions required).1
  have unready := (mem_readyConditions required).2
  have own : stateOf (replaced plan replacement now status).conditions replacement.conditionType = replacement.state := by
    rw [states,if_neg (Ne.symm unready),if_pos rfl]
  have aggregated : readyState (replaced plan replacement now status).toComponentStatus =
      aggregateConditionState (readyConditions plan) (replaced plan replacement now status).conditions := by
    rw [readyState,states,if_pos rfl]
    refine congrArg aggregateStates (List.map_congr_left fun wanted needed => ?_)
    rw [states,if_neg (Ne.symm (mem_readyConditions needed).2),stateOf_replaceCondition present]
  have down : readyState (replaced plan replacement now status).toComponentStatus ≠ .true := by
    rw [aggregated]
    exact not_ready_of_required required (own ▸ fails)
  refine ⟨⟨whole.id,typed,aggregated,?_⟩,down,fun wanted holds => ?_⟩
  · have distinct : (types (replaced plan replacement now status).conditions).Nodup := typed ▸ contracted.nodup
    exact @finishStatus_ready [] _ distinct
  · by_cases ready : wanted = .componentReady
    · subst ready
      exact absurd holds down
    · rw [states,if_neg (Ne.symm ready)] at holds
      split_ifs at holds with here
      · exact absurd holds fails
      · exact holds

theorem stopped_eq_false {status : ProbedStatus} : status.stopped = false ↔
    ∀ condition ∈ status.conditions, condition.reason ≠ .intentionallyStopped := by
  rw [ProbedStatus.stopped,List.any_eq_false]
  simp only [beq_iff_eq]

theorem preserve_reason {current previous : List ComponentCondition} {condition : ComponentCondition}
    (member : condition ∈ preserveConditionTransitions current previous) :
    ∃ same ∈ current, same.reason = condition.reason := by
  obtain ⟨same,there,rfl⟩ := List.mem_map.mp member
  refine ⟨same,there,?_⟩
  split <;> rfl

theorem aggregatedCondition_reason (condition : ComponentConditionType) (state : ComponentConditionState) (now : Int) :
    (aggregatedCondition condition state false now).reason ≠ .intentionallyStopped := by
  unfold aggregatedCondition componentCondition
  simp only [Bool.false_eq_true,false_and,if_false]
  split_ifs <;> exact fun contrary => by cases contrary

/-- No reason is made up that a component was stopped on purpose. -/
theorem replaced_stopped (now : Int) (contracted : Contracted plan)
    (typed : types status.conditions = plan.applicableConditions) (required : replacement.conditionType ∈ readyConditions plan)
    (running : status.stopped = false) (other : replacement.reason ≠ .intentionallyStopped) :
    (replaced plan replacement now status).stopped = false := by
  have present : replacement.conditionType ∈ types status.conditions := typed ▸ (mem_readyConditions required).1
  have distinct : (types status.conditions).Nodup := typed ▸ contracted.nodup
  have kept : types (replaceCondition status.conditions replacement) = plan.applicableConditions :=
    (types_replaceCondition present).trans typed
  have ready : (readyAfter plan replacement now status.conditions).conditionType ∈
      types (replaceCondition status.conditions replacement) := by
    rw [readyAfter,aggregatedCondition_type,kept]
    exact contracted.componentReady
  refine stopped_eq_false.mpr fun condition member => ?_
  rw [replaced_conditions replacement now status contracted] at member
  obtain ⟨same,there,reason⟩ := preserve_reason member
  rw [replaceCondition_eq_map (kept ▸ contracted.nodup) ready,replaceCondition_eq_map distinct present,List.map_map] at there
  obtain ⟨original,listed,rfl⟩ := List.mem_map.mp there
  rw [← reason,Function.comp_apply]
  split_ifs
  · exact aggregatedCondition_reason _ _ _
  · exact other
  · exact aggregatedCondition_reason _ _ _
  · exact stopped_eq_false.mp running original listed

/-- Replacing a condition of a component that was not stopped on purpose only lowers it. -/
theorem replaced_lower (now : Int) (contracted : Contracted plan) (whole : Whole plan status.toComponentStatus)
    (required : replacement.conditionType ∈ readyConditions plan) (fails : replacement.state ≠ .true)
    (running : status.stopped = false) (other : replacement.reason ≠ .intentionallyStopped) :
    Lower status (replaced plan replacement now status) :=
  ⟨rfl,(replaced_stopped now contracted whole.types required running other).trans running.symm,
    (replaced_whole now contracted whole required fails).2.2⟩

end

/-- A component in the end of an observation is whole, and as ready as is forced. -/
theorem finalOf_whole {pairs : Pairs} (previous : List ComponentStatus) (down : List String) (now : Int)
    (fresh : ∀ pair ∈ pairs, Fresh pair.1 pair.2) (distinct : (pairs.map fun pair => pair.1.componentId).Nodup)
    {pair : ComponentPlanContract × ComponentStatus} (member : pair ∈ pairs) :
    Whole pair.1 (finalOf previous down now pairs pair) ∧
      (∀ wanted, wanted ≠ .componentReady → wanted ≠ .dependenciesReady →
        stateOf (finalOf previous down now pairs pair).conditions wanted = stateOf pair.2.conditions wanted) ∧
      readyState (finalOf previous down now pairs pair) = readiness (networkOf pairs) (forcedOf pairs) pair.1.componentId := by
  obtain ⟨contracted,named,typed,_,_⟩ := fresh pair member
  obtain ⟨kept,others,_⟩ := settledBy_spec down now (forcedOf pairs pair.1.componentId) contracted typed
  obtain ⟨_,types,states⟩ :=
    @finishStatus_spec previous (settledBy down now pair.1 (forcedOf pairs pair.1.componentId) pair.2)
  have ready : readyState (finalOf previous down now pairs pair) =
      readyState (settledBy down now pair.1 (forcedOf pairs pair.1.componentId) pair.2) := states .componentReady
  refine ⟨⟨finalOf_id (fresh pair member),types.trans kept,?_,?_⟩,fun wanted unready other => ?_,?_⟩
  · rw [ready,settledBy_aggregated down now _ (fresh pair member)]
    exact congrArg aggregateStates (List.map_congr_left fun wanted _ => (states wanted).symm)
  · rw [ready]
    exact finishStatus_ready (kept ▸ contracted.nodup)
  · exact (states wanted).trans (others wanted unready other)
  · rw [ready]
    exact settledBy_ready down now fresh distinct (forcedOf pairs) member

end Proofstorm.Readiness
