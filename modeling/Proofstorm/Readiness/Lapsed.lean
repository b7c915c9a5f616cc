import Proofstorm.Readiness.Expired

/-!
Expiry of statuses that were recorded under other plans. Some of a cell's components may
have none, and those there are may have the conditions of another contract. Still, what
expires is what is stale by the plans it is read under, and what else is lowered is led to
it by their links.
-/
namespace Proofstorm.Readiness
open Proofstorm.Core Publication Plans

/-! ### Replacing a condition that may not be there -/

section
variable {plan : ComponentPlanContract} {conditions : List ComponentCondition} {replacement condition : ComponentCondition}
  {wanted : ComponentConditionType} {status : ProbedStatus} {now : Int}

theorem mem_replaceCondition (distinct : (types conditions).Nodup) : condition ∈ replaceCondition conditions replacement ↔
    condition = replacement ∨ (condition ∈ conditions ∧ condition.conditionType ≠ replacement.conditionType) := by
  by_cases present : replacement.conditionType ∈ types conditions
  · rw [replaceCondition_eq_map distinct present,List.mem_map]
    constructor
    · rintro ⟨original,listed,rfl⟩
      split_ifs with same
      · exact .inl rfl
      · exact .inr ⟨listed,same⟩
    · rintro (rfl | ⟨listed,other⟩)
      · obtain ⟨original,listed,same⟩ := List.mem_map.mp present
        exact ⟨original,listed,if_pos same⟩
      · exact ⟨condition,listed,if_neg other⟩
  · have absent : ¬ conditions.any (·.conditionType == replacement.conditionType) = true := by
      intro found
      obtain ⟨original,listed,same⟩ := List.any_eq_true.mp found
      exact present (List.mem_map.mpr ⟨original,listed,beq_iff_eq.mp same⟩)
    rw [replaceCondition,if_neg absent,(sortConditions_perm _).mem_iff,List.mem_append,List.mem_singleton,or_comm]
    refine or_congr_right (iff_self_and.mpr fun listed same => present ?_)
    exact same ▸ List.mem_map_of_mem listed

theorem nodup_replaceCondition (replacement : ComponentCondition) (distinct : (types conditions).Nodup) :
    (types (replaceCondition conditions replacement)).Nodup := by
  by_cases present : replacement.conditionType ∈ types conditions
  · rw [types_replaceCondition present]
    exact distinct
  · have absent : ¬ conditions.any (·.conditionType == replacement.conditionType) = true := by
      intro found
      obtain ⟨original,listed,same⟩ := List.any_eq_true.mp found
      exact present (List.mem_map.mpr ⟨original,listed,beq_iff_eq.mp same⟩)
    rw [replaceCondition,if_neg absent]
    refine ((sortConditions_perm _).map ComponentCondition.conditionType).nodup_iff.mpr ?_
    rw [List.map_append,List.map_singleton]
    exact List.nodup_append'.mpr ⟨distinct,List.nodup_singleton _,List.disjoint_singleton.mpr present⟩

theorem conditionOf_replaceCondition (distinct : (types conditions).Nodup) :
    conditionOf (replaceCondition conditions replacement) wanted =
      if replacement.conditionType = wanted then some replacement else conditionOf conditions wanted := by
  ext condition
  rw [conditionOf_eq_some (nodup_replaceCondition replacement distinct),mem_replaceCondition distinct]
  split_ifs with own
  · rw [Option.some.injEq,eq_comm]
    constructor
    · rintro ⟨rfl | ⟨_,other⟩,typed⟩
      · rfl
      · exact absurd (typed.trans own.symm) other
    · rintro rfl
      exact ⟨.inl rfl,own⟩
  · rw [conditionOf_eq_some distinct]
    constructor
    · rintro ⟨rfl | ⟨listed,_⟩,typed⟩
      · exact absurd typed own
      · exact ⟨listed,typed⟩
    · rintro ⟨listed,typed⟩
      exact ⟨.inr ⟨listed,fun same => own (same.symm.trans typed)⟩,typed⟩

/-- What a condition says, whenever it came to say so. -/
def verdictOf (conditions : List ComponentCondition) (wanted : ComponentConditionType) :
    Option (ComponentConditionState × ComponentConditionReason) :=
  (conditionOf conditions wanted).map fun condition => (condition.state,condition.reason)

theorem verdictOf_preserve (current previous : List ComponentCondition) (wanted : ComponentConditionType) :
    verdictOf (preserveConditionTransitions current previous) wanted = verdictOf current wanted := by
  induction current with
  | nil => rfl
  | cons first rest ih =>
    simp only [preserveConditionTransitions,List.map_cons,verdictOf,conditionOf_cons] at ih ⊢
    split
    · dsimp only
      split_ifs with here
      · rfl
      · exact ih
    · split_ifs with here
      · rfl
      · exact ih

theorem stateOf_verdict (conditions : List ComponentCondition) (wanted : ComponentConditionType) :
    stateOf conditions wanted = ((verdictOf conditions wanted).map Prod.fst).getD .unknown := by
  rw [stateOf,verdictOf,Option.map_map]
  rfl

/-- What replacing a condition leaves of the conditions of a component, whatever they are. -/
structure Replaced (plan : ComponentPlanContract) (replacement : ComponentCondition) (before after : ProbedStatus) :
    Prop where
  status : after.id = before.id ∧ after.observedRevisionDigest = before.observedRevisionDigest ∧
    after.observedRolloutDigest = before.observedRolloutDigest ∧ after.protocolObservation = before.protocolObservation
  distinct : (types after.conditions).Nodup
  own : stateOf after.conditions replacement.conditionType = replacement.state
  others : ∀ wanted, wanted ≠ .componentReady → wanted ≠ replacement.conditionType →
    verdictOf after.conditions wanted = verdictOf before.conditions wanted
  unready : readyState after.toComponentStatus ≠ .true
  running : after.stopped = false

theorem replaced_spec (now : Int) (contracted : Contracted plan) (distinct : (types status.conditions).Nodup)
    (required : replacement.conditionType ∈ readyConditions plan) (fails : replacement.state ≠ .true)
    (running : status.stopped = false) (other : replacement.reason ≠ .intentionallyStopped) :
    Replaced plan replacement status (replaced plan replacement now status) := by
  have unready := (mem_readyConditions required).2
  have first := nodup_replaceCondition replacement distinct
  have second := nodup_replaceCondition (readyAfter plan replacement now status.conditions) first
  have shape := replaced_conditions replacement now status contracted
  have type : (readyAfter plan replacement now status.conditions).conditionType = .componentReady := aggregatedCondition_type _ _ _ _
  have found : ∀ wanted, conditionOf (replaceCondition (replaceCondition status.conditions replacement)
      (readyAfter plan replacement now status.conditions)) wanted =
      if .componentReady = wanted then some (readyAfter plan replacement now status.conditions)
      else if replacement.conditionType = wanted then some replacement else conditionOf status.conditions wanted := by
    intro wanted
    rw [conditionOf_replaceCondition first,type,conditionOf_replaceCondition distinct]
  refine ⟨⟨rfl,rfl,rfl,rfl⟩,?_,?_,fun wanted ready own => ?_,?_,?_⟩
  · rw [shape,types_preserve]
    exact second
  · rw [shape,stateOf_preserve,stateOf,found,if_neg (Ne.symm unready),if_pos rfl]
    rfl
  · rw [shape,verdictOf_preserve,verdictOf,found,if_neg (Ne.symm ready),if_neg (Ne.symm own)]
    rfl
  · rw [readyState,shape,stateOf_preserve,stateOf,found,if_pos rfl]
    change ComponentCondition.state (readyAfter plan replacement now status.conditions) ≠ _
    rw [readyAfter,aggregatedCondition_state]
    refine not_ready_of_required required ?_
    rw [stateOf,conditionOf_replaceCondition distinct,if_pos rfl]
    exact fails
  · refine stopped_eq_false.mpr fun condition member => ?_
    rw [shape] at member
    obtain ⟨same,there,reason⟩ := preserve_reason member
    rw [← reason]
    obtain rfl | ⟨there,_⟩ := (mem_replaceCondition first).mp there
    · exact aggregatedCondition_reason _ _ _
    · obtain rfl | ⟨listed,_⟩ := (mem_replaceCondition distinct).mp there
      · exact other
      · exact stopped_eq_false.mp running same listed

end

/-! ### Statuses by their ids -/

section
variable {statuses : List ProbedStatus} {status : ProbedStatus} {id other : String} {change : ProbedStatus → ProbedStatus}

theorem statusOf_cons (first : ProbedStatus) (rest : List ProbedStatus) (id : String) :
    statusOf (first :: rest) id = (statusOf rest id).or (if first.id = id then some first else none) := by
  rw [statusOf,statusOf,List.reverse_cons,List.find?_append]
  congr 1
  by_cases here : first.id = id <;> simp [here]

theorem statusOf_isSome : (statusOf statuses id).isSome = true ↔ ∃ status ∈ statuses, status.id = id := by
  rw [statusOf,List.find?_isSome]
  exact exists_congr fun status => and_congr List.mem_reverse beq_iff_eq

theorem statusOf_id (found : statusOf statuses id = some status) : status.id = id := by
  have same := List.find?_some found
  exact beq_iff_eq.mp same

theorem statusOf_mem (found : statusOf statuses id = some status) : status ∈ statuses :=
  List.mem_reverse.mp (List.mem_of_find?_eq_some found)

theorem statusOf_of_mem (apart : (statuses.map fun status => status.id).Nodup) (member : status ∈ statuses) :
    statusOf statuses status.id = some status := by
  obtain ⟨found,known⟩ := Option.isSome_iff_exists.mp (statusOf_isSome.mpr ⟨status,member,rfl⟩)
  rw [known,List.inj_on_of_nodup_map apart (statusOf_mem known) member (statusOf_id known)]

section
variable (keeps : ∀ status, (change status).id = status.id)
include keeps

theorem updateStatus_ids (statuses : List ProbedStatus) :
    (updateStatus id change statuses).map (fun status => status.id) = statuses.map fun status => status.id := by
  induction statuses with
  | nil => rfl
  | cons first rest ih =>
    rw [updateStatus]
    split_ifs
    · rw [List.map_cons,List.map_cons,ih]
    · rw [List.map_cons,List.map_cons,keeps]
    · rfl

theorem statusOf_update (statuses : List ProbedStatus) :
    statusOf (updateStatus id change statuses) other =
      if other = id then (statusOf statuses id).map change else statusOf statuses other := by
  induction statuses with
  | nil => split_ifs <;> rfl
  | cons first rest ih =>
    rw [updateStatus]
    by_cases later : (rest.any fun status => status.id == id) = true
    · obtain ⟨status,member,is⟩ := List.any_eq_true.mp later
      obtain ⟨last,known⟩ := Option.isSome_iff_exists.mp (statusOf_isSome.mpr ⟨status,member,beq_iff_eq.mp is⟩)
      rw [if_pos later,statusOf_cons,ih,statusOf_cons,statusOf_cons,known]
      split_ifs <;> rfl
    · have absent : statusOf rest id = none := by
        refine Option.not_isSome_iff_eq_none.mp fun found => later ?_
        obtain ⟨status,member,is⟩ := statusOf_isSome.mp found
        exact List.any_eq_true.mpr ⟨status,member,beq_iff_eq.mpr is⟩
      rw [if_neg later]
      by_cases here : first.id = id
      · rw [if_pos here,statusOf_cons,statusOf_cons,statusOf_cons,keeps,here,absent]
        by_cases same : other = id
        · rw [same,absent,if_pos rfl,if_pos rfl,if_pos rfl]
          rfl
        · rw [if_neg (Ne.symm same),if_neg same,if_neg (Ne.symm same)]
      · rw [if_neg here,statusOf_cons,statusOf_cons,absent,if_neg here]
        by_cases same : other = id
        · rw [same,absent,if_neg here,if_pos rfl]
          rfl
        · rw [if_neg same]

theorem readyIn_update (found : statusOf statuses id = some status) :
    readyIn (updateStatus id change statuses) other =
      if other = id then readyState (change status).toComponentStatus else readyIn statuses other := by
  rw [readyIn,statusOf_update keeps,found]
  split_ifs <;> rfl
end

end

/-! ### What expiry keeps -/

/-- Plans with statuses to be read against them, which need not be theirs. -/
structure Readable (plans : List ComponentPlanContract) (start : List ProbedStatus) : Prop where
  installed : ∀ plan ∈ plans, Installed plan
  distinct : (plans.map ComponentPlanContract.componentId).Nodup
  apart : (start.map fun status => status.id).Nodup
  types : ∀ status ∈ start, (types status.conditions).Nodup

/-- A component that runs and waits for another. -/
def Leans (plans : List ComponentPlanContract) (start : List ProbedStatus) (id next : String) : Prop :=
  ∃ plan ∈ plans, plan.componentId = id ∧ plan.dependent = true ∧
    (∃ status, statusOf start id = some status ∧ status.stopped = false) ∧ ∃ link ∈ plan.relevantLinks, link.to = next

/-- A component whose status is stale by its plan. -/
def StaleAt (plans : List ComponentPlanContract) (start : List ProbedStatus) (now : Int) (id : String) : Prop :=
  ∃ plan ∈ plans, plan.componentId = id ∧ ∃ status, statusOf start id = some status ∧ Stale now plan status

/-- What expiry may make of a status, whose component `expired` or not, and was `lowered` or not. -/
structure Lapse (expired lowered : Prop) (before after : ProbedStatus) : Prop where
  status : after.id = before.id ∧ after.observedRevisionDigest = before.observedRevisionDigest ∧
    after.observedRolloutDigest = before.observedRolloutDigest ∧ after.protocolObservation = before.protocolObservation
  stopped : after.stopped = before.stopped
  distinct : (types after.conditions).Nodup
  others : ∀ wanted, wanted ≠ .componentReady → wanted ≠ .protocolReady → wanted ≠ .dependenciesReady →
    verdictOf after.conditions wanted = verdictOf before.conditions wanted
  expires : expired → stateOf after.conditions .protocolReady ≠ .true
  kept : ¬ expired → verdictOf after.conditions .protocolReady = verdictOf before.conditions .protocolReady
  lowers : stateOf after.conditions .dependenciesReady = .true → stateOf before.conditions .dependenciesReady = .true
  held : ¬ lowered → verdictOf after.conditions .dependenciesReady = verdictOf before.conditions .dependenciesReady

section
variable {plans : List ComponentPlanContract} {plan : ComponentPlanContract} {start current : List ProbedStatus}
  {now : Int} {id next : String} {expired lowered lowered' : Prop} {before after status : ProbedStatus}

theorem Lapse.refl (distinct : (types status.conditions).Nodup) (kept : ¬ expired) : Lapse expired lowered status status :=
  ⟨⟨rfl,rfl,rfl,rfl⟩,rfl,distinct,fun _ _ _ _ => rfl,fun holds => absurd holds kept,fun _ => rfl,fun holds => holds,
    fun _ => rfl⟩

theorem Lapse.weaken (lapse : Lapse expired lowered before after) (more : lowered → lowered') :
    Lapse expired lowered' before after :=
  { lapse with held := fun kept => lapse.held fun held => kept (more held) }

/-- A stale status with its protocol expired. -/
theorem lapse_expired (installed : Installed plan) (distinct : (types status.conditions).Nodup)
    (stale : Stale now plan status) (lowered : Prop) (true_ : expired) :
    Lapse expired lowered status (replaced plan (expiredProtocol now) now status) ∧
      readyState (replaced plan (expiredProtocol now) now status).toComponentStatus ≠ .true := by
  obtain ⟨probed,running,_⟩ := stale
  have required : (expiredProtocol now).conditionType ∈ readyConditions plan :=
    protocolReady_required (installed.probed.mp probed)
  have fails : (expiredProtocol now).state ≠ .true := fun contrary => by cases contrary
  have result := replaced_spec now installed.contracted distinct required fails running (fun contrary => by cases contrary)
  have dependencies := result.others .dependenciesReady (fun contrary => by cases contrary) (fun contrary => by cases contrary)
  refine ⟨⟨result.status,result.running.trans running.symm,result.distinct,fun wanted ready protocol _ =>
    result.others wanted ready protocol,fun _ => ?_,fun kept => absurd true_ kept,fun holds => ?_,fun _ => dependencies⟩,
    result.unready⟩
  · have own := result.own
    intro contrary
    exact fails (own.symm.trans contrary)
  · rw [stateOf_verdict] at holds ⊢
    rw [← dependencies]
    exact holds

/-- A status with its dependencies lowered. -/
theorem lapse_lowered {state : ComponentConditionState} (now : Int) (installed : Installed plan) (dependent : plan.dependent = true)
    (lapse : Lapse expired lowered before status) (running : status.stopped = false) (fails : state ≠ .true)
    (true_ : lowered') :
    Lapse expired lowered' before (replaced plan (expiredDependencies state now) now status) ∧
      readyState (replaced plan (expiredDependencies state now) now status).toComponentStatus ≠ .true ∧
      stateOf (replaced plan (expiredDependencies state now) now status).conditions .dependenciesReady ≠ .true := by
  have required : (expiredDependencies state now).conditionType ∈ readyConditions plan := dependenciesReady_required dependent
  have result := replaced_spec now installed.contracted lapse.distinct required (show _ ≠ _ from fails) running
    (fun contrary => by cases contrary)
  have down : stateOf (replaced plan (expiredDependencies state now) now status).conditions .dependenciesReady ≠ .true :=
    fun contrary => fails (result.own.symm.trans contrary)
  have protocol := result.others .protocolReady (fun contrary => by cases contrary) (fun contrary => by cases contrary)
  obtain ⟨named,revision,rollout,timing⟩ := result.status
  obtain ⟨named',revision',rollout',timing'⟩ := lapse.status
  refine ⟨⟨⟨named.trans named',revision.trans revision',rollout.trans rollout',timing.trans timing'⟩,
    (result.running.trans running.symm).trans lapse.stopped,result.distinct,fun wanted ready other dependencies =>
      (result.others wanted ready dependencies).trans (lapse.others wanted ready other dependencies),fun gone => ?_,
    fun kept => protocol.trans (lapse.kept kept),fun contrary => absurd contrary down,fun kept => absurd true_ kept⟩,
    result.unready,down⟩
  rw [stateOf_verdict,protocol,← stateOf_verdict]
  exact lapse.expires gone

/-! ### The first loop -/

/-- The statuses after some of the plans, and those of them that were stale. -/
structure Roots (plans : List ComponentPlanContract) (start : List ProbedStatus) (now : Int) (current : List ProbedStatus)
    (roots : List String) : Prop where
  ids : current.map (fun status => status.id) = start.map fun status => status.id
  each : ∀ id before, statusOf start id = some before → ∃ after, statusOf current id = some after ∧
    Lapse (id ∈ roots) False before after ∧ (id ∈ roots → readyState after.toComponentStatus ≠ .true) ∧
    (id ∉ roots → after = before)
  stale : ∀ id ∈ roots, StaleAt plans start now id

theorem statusOf_none (ids : current.map (fun status => status.id) = start.map fun status => status.id)
    (absent : statusOf start id = none) : statusOf current id = none := by
  refine Option.not_isSome_iff_eq_none.mp fun found => ?_
  obtain ⟨status,member,named⟩ := statusOf_isSome.mp found
  have listed : id ∈ start.map fun status => status.id := ids ▸ List.mem_map.mpr ⟨status,member,named⟩
  obtain ⟨other,there,is⟩ := List.mem_map.mp listed
  rw [← Option.not_isSome_iff_eq_none] at absent
  exact absent (statusOf_isSome.mpr ⟨other,there,is⟩)

theorem roots_first (readable : Readable plans start) (now : Int) : Roots plans start now start [] := by
  refine ⟨rfl,fun id before found => ⟨before,found,?_,fun contrary => absurd contrary List.not_mem_nil,fun _ => rfl⟩,
    fun id contrary => absurd contrary List.not_mem_nil⟩
  exact Lapse.refl (readable.types before (statusOf_mem found)) List.not_mem_nil

theorem expirePlan_roots (readable : Readable plans start) (now : Int) (member : plan ∈ plans) {roots : List String}
    (held : Roots plans start now current roots) (new : plan.componentId ∉ roots) :
    ∃ after added, expirePlan now (current,roots) plan = (after,roots ++ added) ∧ Roots plans start now after (roots ++ added) ∧
      (∀ id ∈ added, id = plan.componentId) ∧
      ∀ status, statusOf start plan.componentId = some status → Stale now plan status → plan.componentId ∈ added := by
  have unchanged : Roots plans start now current (roots ++ []) := by rw [List.append_nil]; exact held
  rw [expirePlan]
  dsimp only
  cases known : statusOf start plan.componentId with
  | none =>
    rw [statusOf_none held.ids known]
    exact ⟨current,[],by rw [List.append_nil],unchanged,fun _ contrary => absurd contrary List.not_mem_nil,
      fun _ same => by cases same⟩
  | some status =>
    obtain ⟨same,found,_,_,untouched⟩ := held.each plan.componentId status known
    obtain rfl := untouched new
    rw [found]
    dsimp only
    split_ifs with skips
    · refine ⟨current,[],by rw [List.append_nil],unchanged,fun _ contrary => absurd contrary List.not_mem_nil,?_⟩
      rintro _ ⟨⟩ stale
      exact absurd stale (skips_iff.mp skips)
    · have stale : Stale now plan same := not_not.mp fun fresh => skips (skips_iff.mpr fresh)
      refine ⟨_,[plan.componentId],rfl,⟨?_,fun id before began => ?_,fun id listed => ?_⟩,
        fun id listed => List.mem_singleton.mp listed,fun _ _ _ => List.mem_singleton_self _⟩
      · rw [updateStatus_ids (replaced_id (expiredProtocol now))]
        exact held.ids
      · rw [statusOf_update (replaced_id (expiredProtocol now))]
        split_ifs with own
        · subst own
          obtain rfl : same = before := Option.some.inj (known.symm.trans began)
          have distinct := readable.types same (statusOf_mem known)
          have inside : plan.componentId ∈ roots ++ [plan.componentId] := List.mem_append_right _ (List.mem_singleton_self _)
          obtain ⟨lapse,unready⟩ := lapse_expired (readable.installed plan member) distinct stale False inside
          exact ⟨_,by rw [found]; rfl,lapse,fun _ => unready,fun outside => absurd inside outside⟩
        · obtain ⟨after,there,lapse,unready,untouched⟩ := held.each id before began
          have iff : id ∈ roots ++ [plan.componentId] ↔ id ∈ roots := by
            rw [List.mem_append,List.mem_singleton,or_iff_left own]
          rw [iff]
          exact ⟨after,there,lapse,unready,untouched⟩
      · obtain before | own := List.mem_append.mp listed
        · exact held.stale id before
        · exact ⟨plan,member,(List.mem_singleton.mp own).symm,same,List.mem_singleton.mp own ▸ known,stale⟩

/-- The first loop finds what is stale. -/
theorem expirePlans_roots (readable : Readable plans start) (now : Int) (rest : List ComponentPlanContract)
    (inside : ∀ plan ∈ rest, plan ∈ plans) (apart : (rest.map ComponentPlanContract.componentId).Nodup)
    {roots : List String} (held : Roots plans start now current roots) (new : ∀ plan ∈ rest, plan.componentId ∉ roots) :
    ∃ after roots', rest.foldl (expirePlan now) (current,roots) = (after,roots') ∧ Roots plans start now after roots' ∧
      (∀ id ∈ roots, id ∈ roots') ∧
      ∀ plan ∈ rest, ∀ status, statusOf start plan.componentId = some status → Stale now plan status →
        plan.componentId ∈ roots' := by
  induction rest generalizing current roots with
  | nil => exact ⟨current,roots,rfl,held,fun _ listed => listed,fun _ contrary => absurd contrary List.not_mem_nil⟩
  | cons first rest ih =>
    obtain ⟨fresh,rest_apart⟩ := List.nodup_cons.mp apart
    obtain ⟨middle,added,run,kept,own,found⟩ := expirePlan_roots readable now (inside first List.mem_cons_self) held
      (new first List.mem_cons_self)
    have later : ∀ plan ∈ rest, plan.componentId ∉ roots ++ added := by
      intro plan member listed
      obtain before | here := List.mem_append.mp listed
      · exact new plan (List.mem_cons_of_mem _ member) before
      · exact fresh (own _ here ▸ List.mem_map_of_mem member)
    obtain ⟨after,roots',run',kept',more,found'⟩ := ih (fun plan member => inside plan (List.mem_cons_of_mem _ member))
      rest_apart kept later
    refine ⟨after,roots',by rw [List.foldl_cons,run,run'],kept',fun id listed => more id (List.mem_append_left _ listed),?_⟩
    intro plan member status began stale
    obtain rfl | there := List.mem_cons.mp member
    · exact more _ (List.mem_append_right _ (found status began stale))
    · exact found' plan there status began stale

/-! ### The queue -/

/-- A component whose dependencies no longer hold, and those that lean on it will know. -/
def Lowered (current : List ProbedStatus) (queue visited : List String) (id : String) : Prop :=
  (id ∈ queue ∨ id ∈ visited) ∧ ∃ status, statusOf current id = some status ∧
    stateOf status.conditions .dependenciesReady ≠ .true

/-- The statuses with what is in line and what has been visited. -/
structure Lapsing (plans : List ComponentPlanContract) (start : List ProbedStatus) (roots : List String)
    (current : List ProbedStatus) (queue visited : List String) : Prop where
  ids : current.map (fun status => status.id) = start.map fun status => status.id
  each : ∀ id before, statusOf start id = some before → ∃ after, statusOf current id = some after ∧
    Lapse (id ∈ roots) (∃ next, (next ∈ queue ∨ next ∈ visited) ∧ Leans plans start id next) before after
  /-- Nothing in line or visited is ready. -/
  unready : ∀ id, id ∈ queue ∨ id ∈ visited → readyIn current id ≠ .true
  /-- What leans on something visited is lowered. -/
  closed : ∀ next ∈ visited, ∀ id, Leans plans start id next → Lowered current queue visited id
  rooted : ∀ id ∈ roots, id ∈ queue ∨ id ∈ visited
  reaches : ∀ id, id ∈ queue ∨ id ∈ visited → ∃ root ∈ roots, Relation.ReflTransGen (Leans plans start) id root

variable {roots queue queue' visited visited' : List String}

theorem Lowered.weaken (held : Lowered current queue visited id)
    (more : ∀ id, id ∈ queue ∨ id ∈ visited → id ∈ queue' ∨ id ∈ visited') : Lowered current queue' visited' id :=
  ⟨more id held.1,held.2⟩

theorem lapsing_first (held : Roots plans start now current roots) : Lapsing plans start roots current roots [] := by
  refine ⟨held.ids,fun id before began => ?_,fun id listed => ?_,fun _ contrary => absurd contrary List.not_mem_nil,
    fun id listed => .inl listed,fun id listed => ?_⟩
  · obtain ⟨after,there,lapse,_⟩ := held.each id before began
    exact ⟨after,there,lapse.weaken False.elim⟩
  · have inside : id ∈ roots := listed.resolve_right List.not_mem_nil
    obtain ⟨_,_,_,status,began,_⟩ := held.stale id inside
    obtain ⟨after,there,_,unready,_⟩ := held.each id status began
    rw [readyIn,there]
    exact unready inside
  · exact ⟨id,listed.resolve_right List.not_mem_nil,.refl⟩

/-- A turn for one dependent of what is at the head of the line. -/
theorem lowerDependent_lapses (readable : Readable plans start) (now : Int) (member : plan ∈ plans)
    (dependent : plan.dependent = true) (leads : ∃ link ∈ plan.relevantLinks, link.to = next)
    (lapsing : Lapsing plans start roots current (next :: queue) visited) (pushed : List String) :
    ∃ after new, lowerDependent plans now (current,pushed) plan.componentId = (after,pushed ++ new) ∧
      Lapsing plans start roots after (next :: (queue ++ new)) visited ∧
      (Leans plans start plan.componentId next → Lowered after (next :: (queue ++ new)) visited plan.componentId) ∧
      ∀ id, Lowered current (next :: queue) visited id → Lowered after (next :: (queue ++ new)) visited id := by
  have unchanged : Lapsing plans start roots current (next :: (queue ++ [])) visited := by
    rw [List.append_nil]
    exact lapsing
  rw [lowerDependent,planOf_distinct readable.distinct member]
  dsimp only
  cases known : statusOf start plan.componentId with
  | none =>
    rw [statusOf_none lapsing.ids known]
    refine ⟨current,[],by rw [List.append_nil],unchanged,?_,fun _ held => by rwa [List.append_nil]⟩
    rintro ⟨_,_,_,_,⟨status,found,_⟩,_⟩
    rw [known] at found
    cases found
  | some before =>
    obtain ⟨status,found,lapse⟩ := lapsing.each _ before known
    rw [found]
    dsimp only
    by_cases stopped : status.stopped = true
    · rw [if_pos stopped]
      refine ⟨current,[],by rw [List.append_nil],unchanged,?_,fun _ held => by rwa [List.append_nil]⟩
      rintro ⟨_,_,_,_,⟨other,began,running⟩,_⟩
      obtain rfl := Option.some.inj (known.symm.trans began)
      rw [lapse.stopped,running] at stopped
      cases stopped
    · rw [if_neg stopped]
      have running : status.stopped = false := Bool.eq_false_iff.mpr stopped
      have leans : Leans plans start plan.componentId next :=
        ⟨plan,member,rfl,dependent,⟨before,known,lapse.stopped.symm.trans running⟩,leads⟩
      have fails : aggregateStates (plan.relevantLinks.map fun link => readyIn current link.to) ≠ .true := by
        obtain ⟨link,carried,rfl⟩ := leads
        intro holds
        rw [aggregateStates_eq_true,List.forall_mem_map] at holds
        exact lapsing.unready link.to (.inl List.mem_cons_self) (holds link carried)
      rw [if_neg fails]
      generalize aggregateStates (plan.relevantLinks.map fun link => readyIn current link.to) = state at fails ⊢
      have grow : ∀ id, id ∈ next :: queue ∨ id ∈ visited → id ∈ next :: (queue ++ [plan.componentId]) ∨ id ∈ visited := by
        intro id listed
        rw [← List.cons_append]
        exact listed.imp_left (List.mem_append_left _)
      have inLine : plan.componentId ∈ next :: (queue ++ [plan.componentId]) :=
        List.mem_cons_of_mem _ (List.mem_append_right _ (List.mem_singleton_self _))
      have wider : (∃ next', (next' ∈ next :: (queue ++ [plan.componentId]) ∨ next' ∈ visited) ∧
          Leans plans start plan.componentId next') := ⟨next,.inl List.mem_cons_self,leans⟩
      obtain ⟨lowered,unready,down⟩ := lapse_lowered now (readable.installed plan member) dependent lapse running
        fails wider
      have keeps : ∀ status, (replaced plan (expiredDependencies state now) now status).id = status.id := fun _ => rfl
      have own : Lowered (updateStatus plan.componentId (replaced plan (expiredDependencies state now) now) current)
          (next :: (queue ++ [plan.componentId])) visited plan.componentId := by
        refine ⟨.inl inLine,_,?_,down⟩
        rw [statusOf_update keeps,if_pos rfl,found]
        rfl
      have others : ∀ id, Lowered current (next :: queue) visited id →
          Lowered (updateStatus plan.componentId (replaced plan (expiredDependencies state now) now) current)
            (next :: (queue ++ [plan.componentId])) visited id := by
        intro id held
        by_cases same : id = plan.componentId
        · exact same ▸ own
        · obtain ⟨listed,other,there,fallen⟩ := held
          refine ⟨grow id listed,other,?_,fallen⟩
          rw [statusOf_update keeps,if_neg same]
          exact there
      refine ⟨_,[plan.componentId],rfl,⟨?_,fun id before began => ?_,fun id listed => ?_,fun other seen id leans' => ?_,
        fun id listed => grow id (lapsing.rooted id listed),fun id listed => ?_⟩,fun _ => own,others⟩
      · rw [updateStatus_ids keeps]
        exact lapsing.ids
      · rw [statusOf_update keeps]
        split_ifs with same
        · subst same
          obtain rfl := Option.some.inj (known.symm.trans began)
          exact ⟨_,by rw [found]; rfl,lowered⟩
        · obtain ⟨after,there,lapse⟩ := lapsing.each id before began
          refine ⟨after,there,lapse.weaken ?_⟩
          rintro ⟨other,listed,leans⟩
          exact ⟨other,grow other listed,leans⟩
      · rw [readyIn_update keeps found]
        split_ifs with same
        · exact unready
        · refine lapsing.unready id (listed.imp_left fun inside => ?_)
          rw [← List.cons_append] at inside
          exact (List.mem_append.mp inside).resolve_right fun here => same (List.mem_singleton.mp here)
      · exact others id (lapsing.closed other seen id leans')
      · by_cases same : id = plan.componentId
        · obtain ⟨root,rooted,path⟩ := lapsing.reaches next (.inl List.mem_cons_self)
          exact ⟨root,rooted,.head (same ▸ leans) path⟩
        · refine lapsing.reaches id (listed.imp_left fun inside => ?_)
          rw [← List.cons_append] at inside
          exact (List.mem_append.mp inside).resolve_right fun here => same (List.mem_singleton.mp here)

/-- A turn for all dependents of what is at the head of the line. -/
theorem lowerDependents_lapses (readable : Readable plans start) (now : Int) (dependents : List String)
    (leads : ∀ id ∈ dependents, ∃ plan ∈ plans, plan.componentId = id ∧ plan.dependent = true ∧
      ∃ link ∈ plan.relevantLinks, link.to = next) (pushed : List String)
    (lapsing : Lapsing plans start roots current (next :: queue) visited) :
    ∃ after new, dependents.foldl (lowerDependent plans now) (current,pushed) = (after,pushed ++ new) ∧
      Lapsing plans start roots after (next :: (queue ++ new)) visited ∧
      (∀ id ∈ dependents, Leans plans start id next → Lowered after (next :: (queue ++ new)) visited id) ∧
      ∀ id, Lowered current (next :: queue) visited id → Lowered after (next :: (queue ++ new)) visited id := by
  induction dependents generalizing current queue pushed with
  | nil =>
    refine ⟨current,[],by rw [List.append_nil]; rfl,?_,fun _ contrary => absurd contrary List.not_mem_nil,fun _ held => ?_⟩
    · rw [List.append_nil]
      exact lapsing
    · rwa [List.append_nil]
  | cons first rest ih =>
    obtain ⟨plan,member,rfl,dependent,leads_first⟩ := leads first List.mem_cons_self
    obtain ⟨middle,new,run,kept,down,falls⟩ := lowerDependent_lapses readable now member dependent leads_first lapsing pushed
    obtain ⟨after,new',run',kept',downs,falls'⟩ := ih (fun id listed => leads id (List.mem_cons_of_mem _ listed))
      (pushed ++ new) kept
    rw [List.append_assoc] at kept' downs falls'
    refine ⟨after,new ++ new',?_,kept',fun id listed leans => ?_,fun id held => falls' id (falls id held)⟩
    · rw [List.foldl_cons,run,run',List.append_assoc]
    · obtain rfl | later := List.mem_cons.mp listed
      · exact falls' _ (down leans)
      · exact downs id later leans

/-- A thing seen before is dropped from the line. -/
theorem lapsing_skip (lapsing : Lapsing plans start roots current (next :: queue) visited) (seen : next ∈ visited) :
    Lapsing plans start roots current queue visited := by
  have shrink : ∀ id, id ∈ next :: queue ∨ id ∈ visited → id ∈ queue ∨ id ∈ visited := by
    intro id listed
    obtain inside | before := listed
    · obtain rfl | later := List.mem_cons.mp inside
      · exact .inr seen
      · exact .inl later
    · exact .inr before
  have grow : ∀ id, id ∈ queue ∨ id ∈ visited → id ∈ next :: queue ∨ id ∈ visited :=
    fun id listed => listed.imp_left (List.mem_cons_of_mem _)
  refine ⟨lapsing.ids,fun id before began => ?_,fun id listed => lapsing.unready id (grow id listed),
    fun other seen id leans => (lapsing.closed other seen id leans).weaken shrink,
    fun id listed => shrink id (lapsing.rooted id listed),fun id listed => lapsing.reaches id (grow id listed)⟩
  obtain ⟨after,there,lapse⟩ := lapsing.each id before began
  exact ⟨after,there,lapse.weaken fun ⟨other,listed,leans⟩ => ⟨other,shrink other listed,leans⟩⟩

/-- A visit leaves everything that leans on the visited lowered. -/
theorem lapsing_turn (readable : Readable plans start) (now : Int) {dependents : String → List String}
    (known : ∀ id next, id ∈ dependents next ↔ ∃ plan ∈ plans, plan.componentId = id ∧
      (statusOf start plan.componentId).isSome = true ∧ plan.dependent = true ∧ ∃ link ∈ plan.relevantLinks, link.to = next)
    (lapsing : Lapsing plans start roots current (next :: queue) visited) :
    Lapsing plans start roots (lowerDependents plans now dependents next current).1
      (queue ++ (lowerDependents plans now dependents next current).2) (next :: visited) := by
  obtain ⟨after,new,run,kept,down,_⟩ := lowerDependents_lapses readable now (dependents next) (fun id listed => by
    obtain ⟨plan,member,named,_,rest⟩ := (known id next).mp listed
    exact ⟨plan,member,named,rest⟩) [] lapsing
  rw [lowerDependents,run,List.nil_append]
  have swap : ∀ id, id ∈ next :: (queue ++ new) ∨ id ∈ visited ↔ id ∈ queue ++ new ∨ id ∈ next :: visited := by
    intro id
    rw [List.mem_cons,List.mem_cons,or_assoc,or_left_comm]
  refine ⟨kept.ids,fun id before began => ?_,fun id listed => kept.unready id ((swap id).mpr listed),
    fun other seen id leans => ?_,fun id listed => (swap id).mp (kept.rooted id listed),
    fun id listed => kept.reaches id ((swap id).mpr listed)⟩
  · obtain ⟨after,there,lapse⟩ := kept.each id before began
    refine ⟨after,there,lapse.weaken ?_⟩
    rintro ⟨other,listed,leans⟩
    exact ⟨other,(swap other).mp listed,leans⟩
  · refine Lowered.weaken ?_ fun id => (swap id).mp
    obtain rfl | before := List.mem_cons.mp seen
    · refine down id ((known id other).mpr ?_) leans
      obtain ⟨plan,member,rfl,dependent,⟨status,began,_⟩,leads⟩ := leans
      exact ⟨plan,member,rfl,by rw [began]; rfl,dependent,leads⟩
    · exact kept.closed other before id leans

/-- What expiry ends at: an empty line. -/
theorem expireProtocolStatus_lapsing (readable : Readable plans start) (now : Int) :
    ∃ roots visited, Lapsing plans start roots (expireProtocolStatus plans start now) [] visited ∧
      ∀ id, id ∈ roots ↔ StaleAt plans start now id := by
  obtain ⟨first,roots,run,held,_,found⟩ := expirePlans_roots readable now plans (fun _ member => member) readable.distinct
    (roots_first readable now) fun _ _ => List.not_mem_nil
  have known : ∀ id next, id ∈ dependentsOf plans first next ↔ ∃ plan ∈ plans, plan.componentId = id ∧
      (statusOf start plan.componentId).isSome = true ∧ plan.dependent = true ∧
        ∃ link ∈ plan.relevantLinks, link.to = next := by
    intro id next
    rw [mem_dependentsOf]
    refine exists_congr fun plan => and_congr_right fun _ => and_congr_right fun _ => and_congr_left fun _ => ?_
    cases began : statusOf start plan.componentId with
    | none => rw [statusOf_none held.ids began]
    | some before =>
      obtain ⟨after,there,_⟩ := held.each _ before began
      rw [there,Option.isSome_some,Option.isSome_some]
  have fuel : roots.length + (Worklist.pending (edgesOf plans) []).length ≤
      roots.length + (plans.flatMap ComponentPlanContract.relevantLinks).length := by
    rw [← edgesOf_length]
    exact Nat.add_le_add_left (List.length_filter_le _ _) _
  obtain ⟨visited,lapsing⟩ := Worklist.run_end (Lapsing plans start roots) (edgesOf plans)
    (fun current next queue visited lapsing seen => lapsing_skip lapsing seen)
    (fun current next queue visited lapsing _ => lapsing_turn readable now known lapsing)
    (fun current next => by
      have pushes := lowerDependent_pushes plans now (dependentsOf plans first next) (current,[])
      rw [List.length_nil,Nat.zero_add] at pushes
      exact pushes.trans (dependentsOf_length plans _ next)) (lapsing_first held) fuel
  refine ⟨roots,visited,?_,fun id => ⟨held.stale id,?_⟩⟩
  · rw [expireProtocolStatus,run]
    exact lapsing
  · rintro ⟨plan,member,rfl,status,began,stale⟩
    exact found plan member status began stale

/-- A component that is led to something stale by what it waits for. -/
def LeadsToStale (plans : List ComponentPlanContract) (start : List ProbedStatus) (now : Int) (id : String) : Prop :=
  ∃ other, Relation.TransGen (Leans plans start) id other ∧ StaleAt plans start now other

/-- What expiry makes of each status. -/
theorem expired_lapse (readable : Readable plans start) (now : Int) :
    (expireProtocolStatus plans start now).map (fun status => status.id) = start.map (fun status => status.id) ∧
      ∀ id before, statusOf start id = some before → ∃ after,
        statusOf (expireProtocolStatus plans start now) id = some after ∧
        Lapse (StaleAt plans start now id) (LeadsToStale plans start now id) before after ∧
        (LeadsToStale plans start now id → stateOf after.conditions .dependenciesReady ≠ .true) := by
  obtain ⟨roots,visited,lapsing,rooted⟩ := expireProtocolStatus_lapsing readable now
  have seen : ∀ id, id ∈ ([] : List String) ∨ id ∈ visited → id ∈ visited :=
    fun id listed => listed.resolve_left List.not_mem_nil
  refine ⟨lapsing.ids,fun id before began => ?_⟩
  obtain ⟨after,there,lapse⟩ := lapsing.each id before began
  rw [rooted id] at lapse
  refine ⟨after,there,lapse.weaken ?_,?_⟩
  · rintro ⟨next,listed,leans⟩
    obtain ⟨root,inside,path⟩ := lapsing.reaches next listed
    exact ⟨root,.head' leans path,(rooted root).mp inside⟩
  · rintro ⟨other,path,stale⟩
    have reached : ∀ first, Relation.ReflTransGen (Leans plans start) first other → first ∈ visited := by
      intro first path
      induction path using Relation.ReflTransGen.head_induction_on with
      | refl => exact seen _ (lapsing.rooted _ ((rooted _).mpr stale))
      | head leans _ ih => exact seen _ (lapsing.closed _ ih _ leans).1
    obtain ⟨next,leans,rest⟩ := Relation.TransGen.head'_iff.mp path
    obtain ⟨_,status,found,fallen⟩ := lapsing.closed next (reached next rest) id leans
    rw [there] at found
    exact Option.some.inj found ▸ fallen

end

end Proofstorm.Readiness
