import Proofstorm.Readiness.Observation

/-!
Lists of conditions of distinct types: what sorting them, replacing one of them, keeping
their times and aggregating their states does to the state of each type.
-/
namespace Proofstorm.Readiness
open Proofstorm.Core Publication Plans

/-! ### Conditions of distinct types -/

section
variable {conditions : List ComponentCondition} {condition replacement : ComponentCondition}
  {wanted : ComponentConditionType}

/-- The types of a list of conditions. -/
def types (conditions : List ComponentCondition) : List ComponentConditionType :=
  conditions.map ComponentCondition.conditionType

theorem conditionOf_cons : conditionOf (condition :: conditions) wanted =
    if condition.conditionType = wanted then some condition else conditionOf conditions wanted := by
  by_cases same : condition.conditionType = wanted <;> simp [conditionOf,same]

theorem conditionOf_isSome (present : wanted ∈ types conditions) : (conditionOf conditions wanted).isSome := by
  obtain ⟨condition,member,rfl⟩ := List.mem_map.mp present
  exact List.find?_isSome.mpr ⟨condition,member,beq_self_eq_true _⟩

theorem stateOf_append_of_mem (present : wanted ∈ types conditions) :
    stateOf (conditions ++ [condition]) wanted = stateOf conditions wanted := by
  obtain ⟨found,known⟩ := Option.isSome_iff_exists.mp (conditionOf_isSome present)
  have appended : conditionOf (conditions ++ [condition]) wanted = some found := by
    simp only [conditionOf] at known ⊢
    rw [List.find?_append,known,Option.some_or]
  rw [stateOf,stateOf,known,appended]

theorem conditionOf_eq_some (distinct : (types conditions).Nodup) :
    conditionOf conditions wanted = some condition ↔ condition ∈ conditions ∧ condition.conditionType = wanted := by
  induction conditions with
  | nil => exact ⟨nofun,fun ⟨member,_⟩ => absurd member List.not_mem_nil⟩
  | cons first rest ih =>
    obtain ⟨fresh,rest_distinct⟩ := List.nodup_cons.mp distinct
    rw [conditionOf_cons]
    split_ifs with here
    · constructor
      · rintro ⟨⟩
        exact ⟨List.mem_cons_self,here⟩
      · rintro ⟨member,typed⟩
        obtain rfl | later := List.mem_cons.mp member
        · rfl
        · exact absurd (List.mem_map.mpr ⟨condition,later,typed.trans here.symm⟩) fresh
    · rw [ih rest_distinct]
      constructor
      · exact fun ⟨member,typed⟩ => ⟨List.mem_cons_of_mem _ member,typed⟩
      · rintro ⟨member,typed⟩
        obtain rfl | later := List.mem_cons.mp member
        · exact absurd typed here
        · exact ⟨later,typed⟩

/-- The order of conditions does not matter to their states. -/
theorem stateOf_perm {others : List ComponentCondition} (distinct : (types conditions).Nodup)
    (perm : conditions.Perm others) : stateOf conditions wanted = stateOf others wanted := by
  have distinct' : (types others).Nodup := (perm.map ComponentCondition.conditionType).nodup_iff.mp distinct
  have same : conditionOf conditions wanted = conditionOf others wanted := by
    ext condition
    rw [conditionOf_eq_some distinct,conditionOf_eq_some distinct',perm.mem_iff]
  rw [stateOf,stateOf,same]

theorem dedupConditions_eq (distinct : (types conditions).Nodup) : dedupConditions conditions = conditions := by
  induction conditions with
  | nil => simp only [dedupConditions]
  | cons first rest ih =>
    cases rest with
    | nil => simp only [dedupConditions]
    | cons second rest =>
      obtain ⟨fresh,rest_distinct⟩ := List.nodup_cons.mp distinct
      have differ : first.conditionType ≠ second.conditionType := fun same => fresh (List.mem_cons.mpr (.inl same))
      simp only [dedupConditions]
      rw [if_neg differ,ih rest_distinct]

theorem types_sortConditions (conditions : List ComponentCondition) : types (sortConditions conditions) =
    (types conditions).insertionSort fun a b => a.rank ≤ b.rank :=
  List.map_insertionSort _ _ ComponentCondition.conditionType conditions fun _ _ _ _ => Iff.rfl

theorem sortConditions_perm (conditions : List ComponentCondition) : (sortConditions conditions).Perm conditions :=
  List.perm_insertionSort _ conditions

/-! ### Replacing a condition -/

theorem types_replaceFirst (present : replacement.conditionType ∈ types conditions) :
    types (replaceCondition.replaceFirst replacement conditions) = types conditions := by
  induction conditions with
  | nil => exact absurd present List.not_mem_nil
  | cons first rest ih =>
    rw [replaceCondition.replaceFirst]
    split_ifs with here
    · simp only [types,List.map_cons,here]
    · obtain same | later := List.mem_cons.mp present
      · exact absurd same.symm here
      · have kept := ih later
        simp only [types,List.map_cons] at kept ⊢
        rw [kept]

theorem stateOf_replaceFirst (present : replacement.conditionType ∈ types conditions) :
    stateOf (replaceCondition.replaceFirst replacement conditions) wanted =
      if replacement.conditionType = wanted then replacement.state else stateOf conditions wanted := by
  induction conditions with
  | nil => exact absurd present List.not_mem_nil
  | cons first rest ih =>
    rw [replaceCondition.replaceFirst]
    split_ifs with here target target
    · rw [stateOf,conditionOf_cons,if_pos target]
      rfl
    · rw [stateOf,stateOf,conditionOf_cons,conditionOf_cons,if_neg target,if_neg (here ▸ target)]
    · obtain same | later := List.mem_cons.mp present
      · exact absurd same.symm here
      · have kept := ih later
        rw [if_pos target] at kept
        rw [stateOf,conditionOf_cons,if_neg (target ▸ here)]
        exact kept
    · obtain same | later := List.mem_cons.mp present
      · exact absurd same.symm here
      · have kept := ih later
        rw [if_neg target] at kept
        simp only [stateOf,conditionOf_cons] at kept ⊢
        split_ifs with first_is
        · rfl
        · exact kept

theorem replaceCondition_present (present : replacement.conditionType ∈ types conditions) :
    replaceCondition conditions replacement = replaceCondition.replaceFirst replacement conditions := by
  obtain ⟨condition,member,typed⟩ := List.mem_map.mp present
  have found : conditions.any (·.conditionType == replacement.conditionType) = true :=
    List.any_eq_true.mpr ⟨condition,member,beq_iff_eq.mpr typed⟩
  rw [replaceCondition,if_pos found]

theorem types_replaceCondition (present : replacement.conditionType ∈ types conditions) :
    types (replaceCondition conditions replacement) = types conditions := by
  rw [replaceCondition_present present,types_replaceFirst present]

theorem stateOf_replaceCondition (present : replacement.conditionType ∈ types conditions) :
    stateOf (replaceCondition conditions replacement) wanted =
      if replacement.conditionType = wanted then replacement.state else stateOf conditions wanted := by
  rw [replaceCondition_present present,stateOf_replaceFirst present]

/-! ### Keeping times -/

theorem types_preserve (current previous : List ComponentCondition) :
    types (preserveConditionTransitions current previous) = types current := by
  simp only [types,preserveConditionTransitions,List.map_map]
  refine List.map_congr_left fun condition _ => ?_
  simp only [Function.comp_apply]
  split <;> rfl

theorem stateOf_preserve (current previous : List ComponentCondition) (wanted : ComponentConditionType) :
    stateOf (preserveConditionTransitions current previous) wanted = stateOf current wanted := by
  induction current with
  | nil => rfl
  | cons first rest ih =>
    simp only [preserveConditionTransitions,List.map_cons,stateOf,conditionOf_cons] at ih ⊢
    split
    · dsimp only
      split_ifs with here
      · rfl
      · exact ih
    · split_ifs with here
      · rfl
      · exact ih

/-! ### Aggregating -/

@[simp] theorem aggregatedCondition_type (condition : ComponentConditionType) (state : ComponentConditionState)
    (stopped : Bool) (now : Int) : (aggregatedCondition condition state stopped now).conditionType = condition := by
  unfold aggregatedCondition componentCondition
  split_ifs <;> rfl

@[simp] theorem aggregatedCondition_state (condition : ComponentConditionType) (state : ComponentConditionState)
    (stopped : Bool) (now : Int) : (aggregatedCondition condition state stopped now).state = state := by
  unfold aggregatedCondition componentCondition
  split_ifs <;> rfl

@[simp] theorem aggregatedCondition_time (condition : ComponentConditionType) (state : ComponentConditionState)
    (stopped : Bool) (now : Int) : (aggregatedCondition condition state stopped now).lastTransitionUnix = now := by
  unfold aggregatedCondition componentCondition
  split_ifs <;> rfl

@[simp] theorem dependenciesCondition_time (state : ComponentConditionState) (now : Int) :
    (dependenciesCondition state now).lastTransitionUnix = now := by
  unfold dependenciesCondition componentCondition
  split_ifs <;> rfl

@[simp] theorem dependenciesCondition_type (state : ComponentConditionState) (now : Int) :
    (dependenciesCondition state now).conditionType = .dependenciesReady := by
  unfold dependenciesCondition componentCondition
  split_ifs <;> rfl

@[simp] theorem dependenciesCondition_state (state : ComponentConditionState) (now : Int) :
    (dependenciesCondition state now).state = state := by
  unfold dependenciesCondition componentCondition
  split_ifs <;> rfl

variable {states : List ComponentConditionState}

theorem aggregateFrom_eq_true {sawUnknown : Bool} :
    aggregateFrom sawUnknown states = .true ↔ sawUnknown = false ∧ ∀ state ∈ states, state = .true := by
  induction states generalizing sawUnknown with
  | nil => cases sawUnknown <;> simp [aggregateFrom]
  | cons first rest ih => cases first <;> simp [aggregateFrom,ih]

theorem aggregateStates_eq_true :
    aggregateStates states = .true ↔ ∀ state ∈ states, state = .true := by
  rw [aggregateStates,aggregateFrom_eq_true,and_iff_right rfl]

theorem aggregateStates_ne_false (hopeful : ∀ state ∈ states, state ≠ .false) :
    aggregateStates states ≠ .false := by
  have general : ∀ sawUnknown, aggregateFrom sawUnknown states ≠ .false := by
    induction states with
    | nil => intro sawUnknown; cases sawUnknown <;> simp [aggregateFrom]
    | cons first rest ih =>
      intro sawUnknown
      have later := ih fun state member => hopeful state (List.mem_cons_of_mem _ member)
      cases first with
      | true => exact later sawUnknown
      | false => exact absurd rfl (hopeful .false List.mem_cons_self)
      | unknown => exact later true
  exact general false

end

end Proofstorm.Readiness
