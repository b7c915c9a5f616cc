import Proofstorm.Readiness.Lowered

/-!
The queue of expiry. Everything in line or visited is not ready, what depends on anything
visited is not ready either, and whatever changed leads to a check that has expired. When
the line is empty, a component that is still ready depends on ready components only.
-/
namespace Proofstorm.Readiness
open Proofstorm.Core Publication Plans

/-- A plan of an installed contract, with the conditions of its backend. -/
def Installed (plan : ComponentPlanContract) : Prop :=
  plan.applicableConditions = applicableConditions plan.backendId ∧
    plan.conditionAggregation = defaultConditionAggregation plan.applicableConditions

variable {plan : ComponentPlanContract}

theorem Installed.contracted (installed : Installed plan) : Contracted plan :=
  ⟨plan.backendId,installed⟩

/-- The backends that are reached over a protocol. -/
def serviceBackends : List String :=
  ["bitcoin-core","postgresql","lnd","cln","ldk-server",Validation.barkProcessor,Validation.barkServer,Validation.clnHold,
    Validation.sparkProcessor,"cdk","nutshell",Validation.openSsp,"redis","keycloak",Validation.ldkProcessor,
    Validation.sparkOperators]

/-- Protocol applicability has an executable probe contract. -/
theorem protocolProbe_applicable (backend : String) :
    (protocolProbeContract backend).isSome = true ↔ .protocolReady ∈ applicableConditions backend := by
  by_cases known : backend ∈ serviceBackends
  · have each : ∀ backend ∈ serviceBackends, (protocolProbeContract backend).isSome = true ↔
        .protocolReady ∈ applicableConditions backend := by decide
    exact each backend known
  · simp only [serviceBackends,List.mem_cons,List.not_mem_nil,or_false,not_or] at known
    have none : protocolProbeContract backend = none := by
      simp only [protocolProbeContract,List.mem_cons,List.not_mem_nil,or_false,known,if_false]
    have wallet : applicableConditions backend = walletConditions := by
      simp only [applicableConditions,List.mem_cons,List.not_mem_nil,or_false,known,if_false]
    rw [none,wallet]
    decide

theorem Installed.probed (installed : Installed plan) :
    (protocolProbeOf plan).isSome = true ↔ .protocolReady ∈ plan.applicableConditions := by
  rw [protocolProbeOf,protocolProbe_applicable,installed.1]

theorem protocolReady_required (applicable : .protocolReady ∈ plan.applicableConditions) :
    .protocolReady ∈ readyConditions plan :=
  List.mem_filter.mpr ⟨by decide,List.contains_iff_mem.mpr applicable⟩

/-- A component that is not stopped rests on a check that is not fresh. -/
def Stale (now : Int) (plan : ComponentPlanContract) (status : ProbedStatus) : Prop :=
  (protocolProbeOf plan).isSome = true ∧ status.stopped = false ∧
    status.protocolObservation.any (·.isFresh now) = false

instance (now : Int) (plan : ComponentPlanContract) (status : ProbedStatus) : Decidable (Stale now plan status) :=
  inferInstanceAs (Decidable (_ ∧ _))

/-! ### The statuses expiry starts from -/

/-- The statuses of the plans of a cell, as an observation leaves them. -/
structure Started (plans : List ComponentPlanContract) (start : ComponentPlanContract → ProbedStatus) : Prop where
  installed : ∀ plan ∈ plans, Installed plan
  distinct : (plans.map ComponentPlanContract.componentId).Nodup
  whole : ∀ plan ∈ plans, Whole plan (start plan).toComponentStatus
  idle : ∀ plan ∈ plans, (start plan).stopped = true → readyState (start plan).toComponentStatus ≠ .true

/-- A status with its protocol expired, if it is stale. -/
def expiredStatus (now : Int) (start : ComponentPlanContract → ProbedStatus) (plan : ComponentPlanContract) : ProbedStatus :=
  if Stale now plan (start plan) then replaced plan (expiredProtocol now) now (start plan) else start plan

section
variable {plans : List ComponentPlanContract} {plan : ComponentPlanContract} {now : Int}
  {start current : ComponentPlanContract → ProbedStatus}

theorem Started.named (started : Started plans start) : ∀ plan ∈ plans, (start plan).id = plan.componentId :=
  fun plan member => (started.whole plan member).id

theorem skips_iff {status : ProbedStatus} :
    ((protocolProbeOf plan).isNone || status.stopped || status.protocolObservation.any (·.isFresh now)) = true ↔
      ¬ Stale now plan status := by
  rw [Stale]
  cases protocolProbeOf plan <;> cases status.stopped <;> simp

theorem expirePlan_eq (distinct : (plans.map ComponentPlanContract.componentId).Nodup)
    (named : ∀ plan ∈ plans, (current plan).id = plan.componentId) (member : plan ∈ plans) (changedIds : List String) :
    expirePlan now (plans.map current,changedIds) plan =
      if Stale now plan (current plan) then
        (plans.map (changed plan.componentId (replaced plan (expiredProtocol now) now) current),
          changedIds ++ [plan.componentId])
      else (plans.map current,changedIds) := by
  rw [expirePlan]
  dsimp only
  rw [statusOf_of_plan distinct named member]
  dsimp only
  by_cases stale : Stale now plan (current plan)
  · rw [if_pos stale,if_neg fun skips => skips_iff.mp skips stale,updateStatus_eq distinct named]
  · rw [if_neg stale,if_pos (skips_iff.mpr stale)]

@[simp] theorem replaced_id (replacement : ComponentCondition) (status : ProbedStatus) :
    (replaced plan replacement now status).id = status.id := rfl

theorem changed_named {id : String} {change : ProbedStatus → ProbedStatus} (keeps : ∀ status, (change status).id = status.id)
    (named : ∀ plan ∈ plans, (current plan).id = plan.componentId) :
    ∀ plan ∈ plans, (changed id change current plan).id = plan.componentId := by
  intro plan member
  rw [changed]
  split_ifs
  · rw [keeps,named plan member]
  · exact named plan member

/-- The first loop over some of the plans: they are expired if they are stale, and no other
    status changes. -/
theorem expirePlans_some (distinct : (plans.map ComponentPlanContract.componentId).Nodup) (now : Int)
    (rest : List ComponentPlanContract) (inside : ∀ plan ∈ rest, plan ∈ plans) (apart : rest.Nodup)
    (current : ComponentPlanContract → ProbedStatus) (roots : List String)
    (named : ∀ plan ∈ plans, (current plan).id = plan.componentId) (new : ∀ plan ∈ rest, plan.componentId ∉ roots) :
    ∃ after roots', rest.foldl (expirePlan now) (plans.map current,roots) = (plans.map after,roots') ∧
      (∀ id ∈ roots', id ∈ roots ∨ ∃ plan ∈ rest, plan.componentId = id) ∧ ∀ plan ∈ plans,
        (plan ∈ rest → after plan = expiredStatus now current plan ∧
          (plan.componentId ∈ roots' ↔ Stale now plan (current plan))) ∧
        (plan ∉ rest → after plan = current plan ∧ (plan.componentId ∈ roots' ↔ plan.componentId ∈ roots)) := by
  induction rest generalizing current roots with
  | nil => exact ⟨current,roots,rfl,fun _ => .inl,fun plan _ => ⟨fun absurdly => absurd absurdly List.not_mem_nil,fun _ => ⟨rfl,Iff.rfl⟩⟩⟩
  | cons first rest ih =>
    obtain ⟨fresh,rest_apart⟩ := List.nodup_cons.mp apart
    have member := inside first List.mem_cons_self
    have others : ∀ plan ∈ plans, plan ≠ first → plan.componentId ≠ first.componentId :=
      fun plan there differ same => differ (List.inj_on_of_nodup_map distinct there member same)
    have rest_inside : ∀ plan ∈ rest, plan ∈ plans := fun plan there => inside plan (List.mem_cons_of_mem _ there)
    rw [List.foldl_cons,expirePlan_eq distinct named member]
    by_cases stale : Stale now first (current first)
    · rw [if_pos stale]
      obtain ⟨after,roots',run,from_rest,each⟩ := ih rest_inside rest_apart
        (changed first.componentId (replaced first (expiredProtocol now) now) current) (roots ++ [first.componentId])
        (changed_named (fun _ => rfl) named) (by
          intro plan there listed
          obtain old | same := List.mem_append.mp listed
          · exact new plan (List.mem_cons_of_mem _ there) old
          · exact others plan (rest_inside plan there) (fun is => fresh (is ▸ there)) (List.mem_singleton.mp same))
      refine ⟨after,roots',run,fun id rooted => ?_,fun plan there => ?_⟩
      · obtain listed | ⟨plan,later,is⟩ := from_rest id rooted
        · obtain old | same := List.mem_append.mp listed
          · exact .inl old
          · exact .inr ⟨first,List.mem_cons_self,(List.mem_singleton.mp same).symm⟩
        · exact .inr ⟨plan,List.mem_cons_of_mem _ later,is⟩
      obtain ⟨expires,stays⟩ := each plan there
      by_cases is : plan = first
      · subst is
        obtain ⟨after_is,rooted⟩ := stays fresh
        refine ⟨fun _ => ⟨?_,?_⟩,fun away => absurd List.mem_cons_self away⟩
        · rw [after_is,changed_self rfl,expiredStatus,if_pos stale]
        · rw [rooted]
          exact iff_of_true (List.mem_append_right _ (List.mem_singleton_self _)) stale
      · have untouched := others plan there is
        rw [expiredStatus,changed_other untouched] at expires
        rw [changed_other untouched] at stays
        refine ⟨fun listed => expires (List.mem_of_ne_of_mem is listed),fun away => ?_⟩
        obtain ⟨after_is,rooted⟩ := stays fun later => away (List.mem_cons_of_mem _ later)
        refine ⟨after_is,?_⟩
        rw [rooted,List.mem_append,List.mem_singleton,or_iff_left untouched]
    · rw [if_neg stale]
      obtain ⟨after,roots',run,from_rest,each⟩ := ih rest_inside rest_apart current roots named
        fun plan there => new plan (List.mem_cons_of_mem _ there)
      refine ⟨after,roots',run,fun id rooted => ?_,fun plan there => ?_⟩
      · obtain old | ⟨plan,later,is⟩ := from_rest id rooted
        · exact .inl old
        · exact .inr ⟨plan,List.mem_cons_of_mem _ later,is⟩
      obtain ⟨expires,stays⟩ := each plan there
      by_cases is : plan = first
      · subst is
        obtain ⟨after_is,rooted⟩ := stays fresh
        refine ⟨fun _ => ⟨?_,?_⟩,fun away => absurd List.mem_cons_self away⟩
        · rw [after_is,expiredStatus,if_neg stale]
        · rw [rooted]
          exact iff_of_false (new plan List.mem_cons_self) stale
      · exact ⟨fun listed => expires (List.mem_of_ne_of_mem is listed),
          fun away => stays fun later => away (List.mem_cons_of_mem _ later)⟩

/-- The first loop expires what is stale, and says which that is. -/
theorem expirePlans_eq (started : Started plans start) (now : Int) : ∃ roots : List String,
    plans.foldl (expirePlan now) (plans.map start,[]) = (plans.map (expiredStatus now start),roots) ∧
      (∀ plan ∈ plans, plan.componentId ∈ roots ↔ Stale now plan (start plan)) ∧
      ∀ id ∈ roots, ∃ plan ∈ plans, plan.componentId = id ∧ Stale now plan (start plan) := by
  obtain ⟨after,roots,run,from_plans,each⟩ := expirePlans_some started.distinct now plans (fun _ member => member)
    started.distinct.of_map start [] started.named fun _ _ => List.not_mem_nil
  have rooted := fun plan (member : plan ∈ plans) => ((each plan member).1 member).2
  refine ⟨roots,?_,rooted,fun id listed => ?_⟩
  · rw [run]
    exact Prod.ext (List.map_congr_left fun plan member => ((each plan member).1 member).1) rfl
  · obtain absurdly | ⟨plan,member,rfl⟩ := from_plans id listed
    · exact absurd absurdly List.not_mem_nil
    · exact ⟨plan,member,rfl,(rooted plan member).mp listed⟩

/-! ### The queue -/

/-- What every turn of the queue keeps. -/
structure Expiring (plans : List ComponentPlanContract) (start current : ComponentPlanContract → ProbedStatus)
    (roots queue visited : List String) : Prop where
  whole : ∀ plan ∈ plans, Whole plan (current plan).toComponentStatus
  lower : ∀ plan ∈ plans, Lower (start plan) (current plan)
  same : ∀ plan ∈ plans, current plan = start plan ∨ plan.componentId ∈ queue ∨ plan.componentId ∈ visited
  /-- Nothing in line or visited is ready. -/
  unready : ∀ id, id ∈ queue ∨ id ∈ visited → readyIn (plans.map current) id ≠ .true
  /-- Nothing that depends on something visited is ready. -/
  closed : ∀ id ∈ visited, ∀ plan ∈ plans, plan.dependent = true → (∃ link ∈ plan.relevantLinks, link.to = id) →
    readyState (current plan).toComponentStatus ≠ .true
  rooted : ∀ id ∈ roots, id ∈ queue ∨ id ∈ visited
  reaches : ∀ id, id ∈ queue ∨ id ∈ visited → ∃ root ∈ roots, Relation.ReflTransGen (Needs plans) id root

variable {roots queue visited : List String}

theorem Expiring.named (expiring : Expiring plans start current roots queue visited) :
    ∀ plan ∈ plans, (current plan).id = plan.componentId := fun plan member => (expiring.whole plan member).id

/-- A status with its protocol expired is whole, lower, and if it was stale not ready. -/
theorem expiredStatus_spec (started : Started plans start) (now : Int) (member : plan ∈ plans) :
    Whole plan (expiredStatus now start plan).toComponentStatus ∧ Lower (start plan) (expiredStatus now start plan) ∧
      (Stale now plan (start plan) → readyState (expiredStatus now start plan).toComponentStatus ≠ .true) := by
  rw [expiredStatus]
  split_ifs with stale
  · obtain ⟨probed,running,_⟩ := stale
    have contracted := (started.installed plan member).contracted
    have whole := started.whole plan member
    have required : (expiredProtocol now).conditionType ∈ readyConditions plan :=
      protocolReady_required ((started.installed plan member).probed.mp probed)
    have fails : (expiredProtocol now).state ≠ .true := fun contrary => by cases contrary
    obtain ⟨still,down,_⟩ := replaced_whole now contracted whole required fails
    exact ⟨still,replaced_lower now contracted whole required fails running (fun contrary => by cases contrary),
      fun _ => down⟩
  · exact ⟨started.whole plan member,Lower.refl _,fun contrary => absurd contrary stale⟩

/-- What the first loop leaves in line. -/
theorem expiring_first (started : Started plans start) (now : Int)
    (rooted : ∀ plan ∈ plans, plan.componentId ∈ roots ↔ Stale now plan (start plan))
    (known : ∀ id ∈ roots, ∃ plan ∈ plans, plan.componentId = id ∧ Stale now plan (start plan)) :
    Expiring plans start (expiredStatus now start) roots roots [] := by
  have spec := fun plan (member : plan ∈ plans) => expiredStatus_spec started now member
  have named : ∀ plan ∈ plans, (expiredStatus now start plan).id = plan.componentId :=
    fun plan member => (spec plan member).1.id
  refine ⟨fun plan member => (spec plan member).1,fun plan member => (spec plan member).2.1,fun plan member => ?_,
    fun id listed => ?_,fun id absurdly => absurd absurdly List.not_mem_nil,fun id listed => .inl listed,
    fun id listed => ?_⟩
  · by_cases stale : Stale now plan (start plan)
    · exact .inr (.inl ((rooted plan member).mpr stale))
    · exact .inl (if_neg stale)
  · have inside := listed.resolve_right List.not_mem_nil
    obtain ⟨plan,member,rfl,stale⟩ := known id inside
    rw [readyIn_of_plan started.distinct named member]
    exact (spec plan member).2.2 stale
  · exact ⟨id,listed.resolve_right List.not_mem_nil,.refl⟩

/-- A stopped component is not ready. -/
theorem Expiring.idle (expiring : Expiring plans start current roots queue visited) (started : Started plans start)
    (member : plan ∈ plans) (stopped : (current plan).stopped = true) :
    readyState (current plan).toComponentStatus ≠ .true := by
  have lower := expiring.lower plan member
  intro holds
  exact started.idle plan member (lower.stopped ▸ stopped) (lower.states _ holds)

/-- Lowering a component that depends on something in line puts it in line. -/
theorem Expiring.lowered (now : Int) (started : Started plans start)
    (expiring : Expiring plans start current roots queue visited)
    (member : plan ∈ plans) (dependent : plan.dependent = true) (running : (current plan).stopped = false)
    {state : ComponentConditionState} (fails : state ≠ .true)
    (needs : ∃ link ∈ plan.relevantLinks, link.to ∈ queue) :
    Expiring plans start (changed plan.componentId (replaced plan (expiredDependencies state now) now) current) roots
        (queue ++ [plan.componentId]) visited ∧
      readyState (replaced plan (expiredDependencies state now) now (current plan)).toComponentStatus ≠ .true := by
  have contracted := (started.installed plan member).contracted
  have whole := expiring.whole plan member
  have required : (expiredDependencies state now).conditionType ∈ readyConditions plan := dependenciesReady_required dependent
  have others : ∀ other ∈ plans, other ≠ plan → other.componentId ≠ plan.componentId :=
    fun other there differ same => differ (List.inj_on_of_nodup_map started.distinct there member same)
  obtain ⟨still,down,_⟩ := replaced_whole now contracted whole required fails
  have lower := replaced_lower now contracted whole required fails running fun contrary => by cases contrary
  have named : ∀ other ∈ plans,
      (changed plan.componentId (replaced plan (expiredDependencies state now) now) current other).id = other.componentId :=
    changed_named (fun _ => rfl) expiring.named
  have unready : ∀ other ∈ plans, readyState
      (changed plan.componentId (replaced plan (expiredDependencies state now) now) current other).toComponentStatus = .true →
      other ≠ plan ∧ readyState (current other).toComponentStatus = .true := by
    intro other there holds
    by_cases is : other = plan
    · subst is
      rw [changed_self rfl] at holds
      exact absurd holds down
    · rw [changed_other (others other there is)] at holds
      exact ⟨is,holds⟩
  refine ⟨⟨fun other there => ?_,fun other there => ?_,fun other there => ?_,fun id listed => ?_,
    fun id seen other there waits leads => ?_,fun id listed => ?_,fun id listed => ?_⟩,down⟩
  · by_cases is : other = plan
    · subst is
      rw [changed_self rfl]
      exact still
    · rw [changed_other (others other there is)]
      exact expiring.whole other there
  · by_cases is : other = plan
    · subst is
      rw [changed_self rfl]
      exact (expiring.lower other there).trans lower
    · rw [changed_other (others other there is)]
      exact expiring.lower other there
  · by_cases is : other = plan
    · exact .inr (.inl (List.mem_append_right _ (List.mem_singleton.mpr (congrArg _ is))))
    · rw [changed_other (others other there is)]
      exact (expiring.same other there).imp_right (Or.imp_left (List.mem_append_left _))
  · by_cases known : ∃ other ∈ plans, other.componentId = id
    · obtain ⟨other,there,rfl⟩ := known
      rw [readyIn_of_plan started.distinct named there]
      intro holds
      obtain ⟨differ,before⟩ := unready other there holds
      have earlier : other.componentId ∈ queue ∨ other.componentId ∈ visited := by
        refine listed.imp_left fun inside => (List.mem_append.mp inside).resolve_right fun own => ?_
        exact others other there differ (List.mem_singleton.mp own)
      refine expiring.unready other.componentId earlier ?_
      rw [readyIn_of_plan started.distinct expiring.named there]
      exact before
    · rw [readyIn,statusOf_of_away named fun other there same => known ⟨other,there,same⟩]
      exact fun contrary => by cases contrary
  · intro holds
    exact expiring.closed id seen other there waits leads (unready other there holds).2
  · exact (expiring.rooted id listed).imp_left (List.mem_append_left _)
  · by_cases own : id = plan.componentId
    · obtain ⟨link,carried,inside⟩ := needs
      obtain ⟨root,rooted,path⟩ := expiring.reaches link.to (.inl inside)
      exact ⟨root,rooted,.head ⟨plan,member,own.symm,dependent,link,carried,rfl⟩ path⟩
    · exact expiring.reaches id (listed.imp_left fun inside =>
        (List.mem_append.mp inside).resolve_right fun is => own (List.mem_singleton.mp is))

/-- A turn for one dependent of what is at the head of the line leaves it unready. -/
theorem lowerDependent_keeps (started : Started plans start) (now : Int) {next : String}
    (expiring : Expiring plans start current roots (next :: queue) visited) (member : plan ∈ plans)
    (dependent : plan.dependent = true) (leads : ∃ link ∈ plan.relevantLinks, link.to = next) (pushed : List String) :
    ∃ after new, lowerDependent plans now (plans.map current,pushed) plan.componentId = (plans.map after,pushed ++ new) ∧
      new.length ≤ 1 ∧ Expiring plans start after roots (next :: (queue ++ new)) visited ∧
      readyState (after plan).toComponentStatus ≠ .true ∧
      ∀ other ∈ plans, readyState (after other).toComponentStatus = .true →
        readyState (current other).toComponentStatus = .true := by
  rw [lowerDependent,planOf_distinct started.distinct member]
  dsimp only
  rw [statusOf_of_plan started.distinct expiring.named member]
  dsimp only
  by_cases stopped : (current plan).stopped = true
  · rw [if_pos stopped]
    refine ⟨current,[],by rw [List.append_nil],Nat.zero_le _,?_,expiring.idle started member stopped,fun _ _ holds => holds⟩
    rw [List.append_nil]
    exact expiring
  · rw [if_neg stopped]
    have fails : aggregateStates (plan.relevantLinks.map fun link => readyIn (plans.map current) link.to) ≠ .true := by
      obtain ⟨link,carried,rfl⟩ := leads
      intro holds
      rw [aggregateStates_eq_true,List.forall_mem_map] at holds
      exact expiring.unready link.to (.inl List.mem_cons_self) (holds link carried)
    rw [if_neg fails,updateStatus_eq started.distinct expiring.named]
    obtain ⟨link,carried,is⟩ := leads
    obtain ⟨next_kept,down⟩ := expiring.lowered now started member dependent (Bool.eq_false_iff.mpr stopped) fails
      ⟨link,carried,is ▸ List.mem_cons_self⟩
    refine ⟨_,[plan.componentId],rfl,le_rfl,next_kept,?_,fun other there holds => ?_⟩
    · rw [changed_self rfl]
      exact down
    · by_cases same : other.componentId = plan.componentId
      · rw [List.inj_on_of_nodup_map started.distinct there member same,changed_self rfl] at holds
        exact absurd holds down
      · rw [changed_other same] at holds
        exact holds

/-- A turn for all dependents of what is at the head of the line. -/
theorem lowerDependents_keeps (started : Started plans start) (now : Int) {next : String} (dependents : List String)
    (leads : ∀ id ∈ dependents, ∃ plan ∈ plans, plan.componentId = id ∧ plan.dependent = true ∧
      ∃ link ∈ plan.relevantLinks, link.to = next) (pushed : List String)
    (expiring : Expiring plans start current roots (next :: queue) visited) :
    ∃ after new, dependents.foldl (lowerDependent plans now) (plans.map current,pushed) =
        (plans.map after,pushed ++ new) ∧
      Expiring plans start after roots (next :: (queue ++ new)) visited ∧
      (∀ plan ∈ plans, plan.componentId ∈ dependents → readyState (after plan).toComponentStatus ≠ .true) ∧
      ∀ plan ∈ plans, readyState (after plan).toComponentStatus = .true →
        readyState (current plan).toComponentStatus = .true := by
  induction dependents generalizing current queue pushed with
  | nil =>
    refine ⟨current,[],by rw [List.append_nil]; rfl,?_,fun _ _ absurdly => absurd absurdly List.not_mem_nil,
      fun _ _ holds => holds⟩
    rw [List.append_nil]
    exact expiring
  | cons first rest ih =>
    obtain ⟨plan,member,rfl,dependent,leads_first⟩ := leads first List.mem_cons_self
    obtain ⟨middle,new,run,_,kept,down,falls⟩ := lowerDependent_keeps started now expiring member dependent leads_first pushed
    obtain ⟨after,new',run',kept',downs,falls'⟩ := ih (fun id listed => leads id (List.mem_cons_of_mem _ listed))
      (pushed ++ new) kept
    refine ⟨after,new ++ new',?_,?_,fun other there listed => ?_,fun other there holds => ?_⟩
    · rw [List.foldl_cons,run,run',List.append_assoc]
    · rw [← List.append_assoc]
      exact kept'
    · obtain same | later := List.mem_cons.mp listed
      · rw [List.inj_on_of_nodup_map started.distinct there member same]
        exact fun holds => down (falls' plan member holds)
      · exact downs other there later
    · exact falls other there (falls' other there holds)

/-- The components that a change leads to, once for every link. -/
def edgesOf (plans : List ComponentPlanContract) : List (String × String) :=
  plans.flatMap fun plan => plan.relevantLinks.map fun link => (plan.componentId,link.to)

theorem mem_dependentsOf {statuses : List ProbedStatus} {id next : String} : id ∈ dependentsOf plans statuses next ↔
    ∃ plan ∈ plans, plan.componentId = id ∧ (statusOf statuses plan.componentId).isSome = true ∧ plan.dependent = true ∧
      ∃ link ∈ plan.relevantLinks, link.to = next := by
  rw [dependentsOf,List.mem_flatMap]
  constructor
  · rintro ⟨plan,member,listed⟩
    split_ifs at listed with held
    · obtain ⟨link,carried,rfl⟩ := List.mem_map.mp listed
      obtain ⟨carried,is⟩ := List.mem_filter.mp carried
      exact ⟨plan,member,rfl,held.1,held.2,link,carried,beq_iff_eq.mp is⟩
    · exact absurd listed List.not_mem_nil
  · rintro ⟨plan,member,rfl,found,dependent,link,carried,is⟩
    refine ⟨plan,member,?_⟩
    rw [if_pos ⟨found,dependent⟩]
    exact List.mem_map.mpr ⟨link,List.mem_filter.mpr ⟨carried,beq_iff_eq.mpr is⟩,rfl⟩

theorem dependentsOf_length (plans : List ComponentPlanContract) (statuses : List ProbedStatus) (next : String) :
    (dependentsOf plans statuses next).length ≤ ((edgesOf plans).filter fun edge => edge.2 = next).length := by
  rw [dependentsOf,edgesOf]
  induction plans with
  | nil => exact Nat.zero_le _
  | cons first rest ih =>
    rw [List.flatMap_cons,List.flatMap_cons,List.filter_append,List.length_append,List.length_append]
    refine Nat.add_le_add ?_ ih
    rw [List.filter_map,List.length_map]
    split_ifs
    · rw [List.length_map]
      exact le_rfl
    · exact Nat.zero_le _

theorem lowerDependent_pushes (plans : List ComponentPlanContract) (now : Int) (dependents : List String)
    (state : List ProbedStatus × List String) :
    (dependents.foldl (lowerDependent plans now) state).2.length ≤ state.2.length + dependents.length := by
  induction dependents generalizing state with
  | nil => exact le_rfl
  | cons first rest ih =>
    have one : (lowerDependent plans now state first).2.length ≤ state.2.length + 1 := by
      unfold lowerDependent
      split
      · dsimp only
        split_ifs
        · exact Nat.le_succ _
        · exact Nat.le_succ _
        · rw [List.length_append]
          exact le_rfl
      · exact Nat.le_succ _
    have more := ih (lowerDependent plans now state first)
    rw [List.foldl_cons,List.length_cons]
    omega

/-- The statuses of the plans, with what is in line and what has been visited. -/
def InLine (plans : List ComponentPlanContract) (start : ComponentPlanContract → ProbedStatus) (roots : List String)
    (statuses : List ProbedStatus) (queue visited : List String) : Prop :=
  ∃ current, statuses = plans.map current ∧ Expiring plans start current roots queue visited

/-- A thing seen before is dropped from the line. -/
theorem inLine_skip {statuses : List ProbedStatus} {next : String}
    (held : InLine plans start roots statuses (next :: queue) visited) (seen : next ∈ visited) :
    InLine plans start roots statuses queue visited := by
  obtain ⟨current,shape,kept⟩ := held
  have shrink : ∀ id, id ∈ next :: queue ∨ id ∈ visited → id ∈ queue ∨ id ∈ visited := by
    intro id listed
    obtain inside | before := listed
    · obtain rfl | later := List.mem_cons.mp inside
      · exact .inr seen
      · exact .inl later
    · exact .inr before
  have grow : ∀ id, id ∈ queue ∨ id ∈ visited → id ∈ next :: queue ∨ id ∈ visited :=
    fun id listed => listed.imp_left (List.mem_cons_of_mem _)
  exact ⟨current,shape,kept.whole,kept.lower,fun plan member => (kept.same plan member).imp_right (shrink _),
    fun id listed => kept.unready id (grow id listed),kept.closed,fun id listed => shrink id (kept.rooted id listed),
    fun id listed => kept.reaches id (grow id listed)⟩

/-- A visit leaves everything that depends on the visited unready. -/
theorem inLine_turn (started : Started plans start) (now : Int) {dependents : String → List String}
    (known : ∀ id next, id ∈ dependents next ↔ ∃ plan ∈ plans, plan.componentId = id ∧ plan.dependent = true ∧
      ∃ link ∈ plan.relevantLinks, link.to = next) {statuses : List ProbedStatus} {next : String}
    (held : InLine plans start roots statuses (next :: queue) visited) :
    InLine plans start roots (lowerDependents plans now dependents next statuses).1
      (queue ++ (lowerDependents plans now dependents next statuses).2) (next :: visited) := by
  obtain ⟨current,rfl,kept⟩ := held
  obtain ⟨after,new,run,expiring,down,_⟩ := lowerDependents_keeps started now (dependents next)
    (fun id listed => (known id next).mp listed) [] kept
  rw [lowerDependents,run,List.nil_append]
  have swap : ∀ id, id ∈ next :: (queue ++ new) ∨ id ∈ visited ↔ id ∈ queue ++ new ∨ id ∈ next :: visited := by
    intro id
    rw [List.mem_cons,List.mem_cons,or_assoc,or_left_comm]
  refine ⟨after,rfl,expiring.whole,expiring.lower,fun plan member => (expiring.same plan member).imp_right (swap _).mp,
    fun id listed => expiring.unready id ((swap id).mpr listed),fun id seen plan member dependent leads => ?_,
    fun id listed => (swap id).mp (expiring.rooted id listed),fun id listed => expiring.reaches id ((swap id).mpr listed)⟩
  obtain rfl | before := List.mem_cons.mp seen
  · exact down plan member ((known _ _).mpr ⟨plan,member,rfl,dependent,leads⟩)
  · exact expiring.closed id before plan member dependent leads

theorem edgesOf_length (plans : List ComponentPlanContract) :
    (edgesOf plans).length = (plans.flatMap ComponentPlanContract.relevantLinks).length := by
  rw [edgesOf,List.length_flatMap,List.length_flatMap]
  simp only [List.length_map]

/-- The queue runs empty. -/
theorem expireDependentStatus_end (started : Started plans start) (now : Int)
    (expiring : Expiring plans start current roots roots []) :
    ∃ visited, InLine plans start roots (expireDependentStatus plans (plans.map current) roots now) [] visited := by
  have known : ∀ id next, id ∈ dependentsOf plans (plans.map current) next ↔ ∃ plan ∈ plans, plan.componentId = id ∧
      plan.dependent = true ∧ ∃ link ∈ plan.relevantLinks, link.to = next := by
    intro id next
    rw [mem_dependentsOf]
    refine exists_congr fun plan => and_congr_right fun member => ?_
    rw [statusOf_of_plan started.distinct expiring.named member]
    simp only [Option.isSome_some,true_and]
  have fuel : roots.length + (Worklist.pending (edgesOf plans) []).length ≤
      roots.length + (plans.flatMap ComponentPlanContract.relevantLinks).length := by
    rw [← edgesOf_length]
    exact Nat.add_le_add_left (List.length_filter_le _ _) _
  refine Worklist.run_end (InLine plans start roots) (edgesOf plans) (fun statuses next queue visited held seen => inLine_skip held seen)
    (fun statuses next queue visited held _ => inLine_turn started now known held) (fun statuses next => ?_)
    ⟨current,rfl,expiring⟩ fuel
  have pushes := lowerDependent_pushes plans now (dependentsOf plans (plans.map current) next) (statuses,[])
  rw [List.length_nil,Nat.zero_add] at pushes
  exact pushes.trans (dependentsOf_length plans _ next)

/-- What expiry ends at: an empty line. -/
theorem expireProtocolStatus_end (started : Started plans start) (now : Int) :
    ∃ after roots visited, expireProtocolStatus plans (plans.map start) now = plans.map after ∧
      (∀ plan ∈ plans, plan.componentId ∈ roots ↔ Stale now plan (start plan)) ∧
      (∀ id ∈ roots, ∃ plan ∈ plans, plan.componentId = id ∧ Stale now plan (start plan)) ∧
      Expiring plans start after roots [] visited := by
  obtain ⟨roots,run,rooted,known⟩ := expirePlans_eq started now
  obtain ⟨visited,after,ended,expiring⟩ := expireDependentStatus_end started now (expiring_first started now rooted known)
  refine ⟨after,roots,visited,?_,rooted,known,expiring⟩
  rw [expireProtocolStatus,run]
  exact ended

end

end Proofstorm.Readiness
