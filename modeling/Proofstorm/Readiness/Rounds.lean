import Proofstorm.Readiness.Settled
import Proofstorm.Entries

/-!
The passes as rounds. When everything but dependencies holds of every component, a
component is marked ready after so many passes exactly when it is settled after so many
rounds, and the observation marks all of them ready exactly when the plans' links do not
run in a circle through components that wait.
-/
namespace Proofstorm.Readiness
open Proofstorm.Core Publication Plans Waiting

/-! ### Passes over pairs -/

section
variable {α β : Type} {r r' : α → β → Prop} {left : List α} {right : List β} {f : α → β → β}

theorem forall₂_zipWith (each : List.Forall₂ r left right) (step : ∀ a b, a ∈ left → r a b → r' a (f a b)) :
    List.Forall₂ r' left (List.zipWith f left right) := by
  induction each with
  | nil => exact .nil
  | cons pair _ ih =>
    exact .cons (step _ _ List.mem_cons_self pair) (ih fun a b member => step a b (List.mem_cons_of_mem _ member))

theorem forall₂_imp (each : List.Forall₂ r left right) (step : ∀ a b, a ∈ left → r a b → r' a b) :
    List.Forall₂ r' left right := by
  induction each with
  | nil => exact .nil
  | cons pair _ ih =>
    exact .cons (step _ _ List.mem_cons_self pair) (ih fun a b member => step a b (List.mem_cons_of_mem _ member))

theorem forall₂_map_self {g : α → β} (each : ∀ a ∈ left, r a (g a)) : List.Forall₂ r left (left.map g) := by
  induction left with
  | nil => exact .nil
  | cons a rest ih => exact .cons (each a List.mem_cons_self) (ih fun b member => each b (List.mem_cons_of_mem _ member))

end

/-! ### Plans -/

/-- Plans of one cell: with the conditions of installed contracts, of components with
    distinct ids, and linked to each other. -/
structure Planned (plans : List ComponentPlanContract) : Prop where
  contracted : ∀ plan ∈ plans, Contracted plan
  distinct : (plans.map ComponentPlanContract.componentId).Nodup
  linked : ∀ plan ∈ plans, ∀ link ∈ plan.relevantLinks, ∃ target ∈ plans, target.componentId = link.to

/-- A component that waits for none. -/
def Independent (plans : List ComponentPlanContract) (id : String) : Prop :=
  ∀ plan ∈ plans, plan.componentId = id → plan.dependent = false

/-- A component that waits for another. -/
def Needs (plans : List ComponentPlanContract) (id other : String) : Prop :=
  ∃ plan ∈ plans, plan.componentId = id ∧ plan.dependent = true ∧ ∃ link ∈ plan.relevantLinks, link.to = other

/-- Everything but its dependencies holds of a component. -/
def OthersTrue (resources : ComponentObservationResources) (now : Int) (plan : ComponentPlanContract) : Prop :=
  ∀ wanted ∈ plan.applicableConditions, wanted ≠ .dependenciesReady → wanted ≠ .componentReady →
    stateOf (observeAtomicConditions plan resources false now) wanted = .true

section
variable {plans : List ComponentPlanContract} {plan : ComponentPlanContract}

theorem independent_free : ∀ id, Independent plans id → ∀ other, ¬ Needs plans id other := by
  rintro id independent other ⟨plan,member,named,dependent,_⟩
  rw [independent plan member named] at dependent
  cases dependent

theorem Planned.same (planned : Planned plans) {other : ComponentPlanContract} (member : plan ∈ plans)
    (there : other ∈ plans) (named : other.componentId = plan.componentId) : other = plan :=
  List.inj_on_of_nodup_map planned.distinct there member named

theorem Planned.independent_iff (planned : Planned plans) (member : plan ∈ plans) :
    Independent plans plan.componentId ↔ plan.dependent = false := by
  constructor
  · exact fun independent => independent plan member rfl
  · intro alone other there named
    rw [planned.same member there named]
    exact alone

theorem Planned.settled_succ (planned : Planned plans) (member : plan ∈ plans) (dependent : plan.dependent = true)
    {rounds : Nat} : Settled (Independent plans) (Needs plans) (rounds + 1) plan.componentId ↔
      ∀ link ∈ plan.relevantLinks, Settled (Independent plans) (Needs plans) rounds link.to := by
  constructor
  · exact fun settled link carried => settled link.to ⟨plan,member,rfl,dependent,link,carried,rfl⟩
  · rintro each other ⟨same,there,named,_,link,carried,rfl⟩
    rw [planned.same member there named] at carried
    exact each link carried

variable {resources : ComponentObservationResources} {statuses : List ComponentStatus} {now : Int}
  {conditions : List ComponentCondition}

/-- With the others true, a component's readiness is that of its dependencies. -/
theorem ready_of_others (others : ∀ wanted ∈ plan.applicableConditions, wanted ≠ .dependenciesReady →
      wanted ≠ .componentReady → stateOf conditions wanted = .true) :
    (aggregateConditionState (readyConditions plan) conditions = .true ↔
      (plan.dependent = true → stateOf conditions .dependenciesReady = .true)) ∧
    ((plan.dependent = true → stateOf conditions .dependenciesReady ≠ .false) →
      aggregateConditionState (readyConditions plan) conditions ≠ .false) := by
  have states : ∀ wanted ∈ readyConditions plan, wanted ≠ .dependenciesReady → stateOf conditions wanted = .true := by
    intro wanted required other
    obtain ⟨applicable,unready⟩ := mem_readyConditions required
    exact others wanted applicable other unready
  constructor
  · rw [aggregateConditionState,aggregateStates_eq_true,List.forall_mem_map]
    constructor
    · exact fun all dependent => all .dependenciesReady (dependenciesReady_required dependent)
    · intro dependencies wanted required
      by_cases waiting : wanted = .dependenciesReady
      · subst waiting
        exact dependencies (dependent_iff.mpr (mem_readyConditions required).1)
      · exact states wanted required waiting
  · intro hopeful
    refine aggregateStates_ne_false (List.forall_mem_map.mpr fun wanted required => ?_)
    by_cases waiting : wanted = .dependenciesReady
    · subst waiting
      exact hopeful (dependent_iff.mpr (mem_readyConditions required).1)
    · rw [states wanted required waiting]
      decide

/-! ### One pass -/

/-- A status after so many passes. -/
structure Marks (plans : List ComponentPlanContract) (resources : ComponentObservationResources) (now : Int)
    (rounds : Nat) (plan : ComponentPlanContract) (status : ComponentStatus) : Prop where
  kept : Kept resources now false plan status
  ready : readyState status = .true ↔ Settled (Independent plans) (Needs plans) rounds plan.componentId
  hopeful : readyState status ≠ .false

/-- Before the first pass only what waits for none is ready. -/
theorem marks_first (previous : List ComponentStatus) (planned : Planned plans) (member : plan ∈ plans) (others : OthersTrue resources now plan) :
    Marks plans resources now 0 plan (observeComponent plan resources previous false now) := by
  obtain ⟨kept,alone,ready⟩ := observeComponent_spec resources previous false now (planned.contracted plan member)
  obtain ⟨marked,hopeful⟩ := ready_of_others others
  have unobserved := dependencies_unobserved plan resources false now
  refine ⟨kept,?_,?_⟩
  · rw [ready,marked]
    change _ ↔ Independent plans plan.componentId
    rw [planned.independent_iff member]
    constructor
    · intro dependencies
      by_contra dependent
      rw [Bool.not_eq_false] at dependent
      have known := dependencies dependent
      rw [unobserved dependent] at known
      cases known
    · intro alone dependent
      rw [alone] at dependent
      cases dependent
  · rw [ready]
    refine hopeful fun dependent => ?_
    rw [unobserved dependent]
    decide

theorem priorState_of_marks (planned : Planned plans) {rounds : Nat}
    (each : List.Forall₂ (Marks plans resources now rounds) plans statuses) (member : plan ∈ plans) :
    ∃ status, Marks plans resources now rounds plan status ∧
      priorState (priorPass statuses) plan.componentId = readyState status := by
  have keys : (priorPass statuses).map Prod.fst = plans.map ComponentPlanContract.componentId := by
    rw [priorPass,List.map_map]
    exact map_eq_of_forall₂ each fun plan status marks => marks.kept.id
  obtain ⟨status,there,marks⟩ := exists_of_mem_left each member
  refine ⟨status,marks,?_⟩
  have distinct : ((priorPass statuses).map Prod.fst).Nodup := keys ▸ planned.distinct
  have listed : (plan.componentId,readyState status) ∈ priorPass statuses :=
    List.mem_map.mpr ⟨status,there,by rw [marks.kept.id]⟩
  rw [priorState,← Entries.lookup_perm (List.reverse_perm _).symm distinct,Entries.lookup_of_mem listed distinct,
    Option.getD_some]

/-- A pass is a round. -/
theorem marks_pass (planned : Planned plans) (others : ∀ plan ∈ plans, OthersTrue resources now plan)
    (down : List String) {rounds : Nat} (each : List.Forall₂ (Marks plans resources now rounds) plans statuses) :
    List.Forall₂ (Marks plans resources now (rounds + 1)) plans (resolvePass plans down now statuses) := by
  refine forall₂_zipWith each fun plan status member marks => ?_
  obtain ⟨kept,still,renewed⟩ := resolveComponent_spec (priorPass statuses) down (planned.contracted plan member) marks.kept
  cases dependent : plan.dependent with
  | false =>
    have alone := (planned.independent_iff member).mpr dependent
    rw [still dependent]
    refine ⟨marks.kept,?_,marks.hopeful⟩
    rw [marks.ready]
    exact iff_of_true (settled_of_start independent_free alone rounds) (settled_of_start independent_free alone _)
  | true =>
    obtain ⟨dependencies,ready⟩ := renewed dependent
    have standing : ∀ wanted ∈ plan.applicableConditions, wanted ≠ .dependenciesReady → wanted ≠ .componentReady →
        stateOf (Readiness.resolveComponent (priorPass statuses) down now plan status).conditions wanted = .true := by
      intro wanted applicable other unready
      rw [kept.others wanted applicable other unready]
      exact others plan member wanted applicable other unready
    obtain ⟨marked,hopeful⟩ := ready_of_others standing
    have linked : ∀ link ∈ plan.relevantLinks, ∃ target ∈ plans, ∃ found, target.componentId = link.to ∧
        Marks plans resources now rounds target found ∧ priorState (priorPass statuses) link.to = readyState found := by
      intro link carried
      obtain ⟨target,there,named⟩ := planned.linked plan member link carried
      obtain ⟨found,marks,prior⟩ := priorState_of_marks planned each there
      exact ⟨target,there,found,named,marks,named ▸ prior⟩
    refine ⟨kept,?_,?_⟩
    · rw [ready,marked,dependencies,aggregateStates_eq_true,List.forall_mem_map,planned.settled_succ member dependent,
        forall_prop_of_true dependent]
      refine forall₂_congr fun link carried => ?_
      obtain ⟨target,_,found,named,marks,prior⟩ := linked link carried
      rw [prior,marks.ready,named]
    · rw [ready]
      refine hopeful fun _ => ?_
      rw [dependencies]
      refine aggregateStates_ne_false (List.forall_mem_map.mpr fun link carried => ?_)
      obtain ⟨target,_,found,named,marks,prior⟩ := linked link carried
      rw [prior]
      exact marks.hopeful

/-! ### All passes -/

/-- The ids of the planned components. -/
def planIds (plans : List ComponentPlanContract) : Finset String :=
  (plans.map ComponentPlanContract.componentId).toFinset

theorem mem_planIds {id : String} : id ∈ planIds plans ↔ ∃ plan ∈ plans, plan.componentId = id := by
  rw [planIds,List.mem_toFinset,List.mem_map]

theorem Planned.card (planned : Planned plans) : (planIds plans).card = plans.length := by
  rw [planIds,List.toFinset_card_of_nodup planned.distinct,List.length_map]

theorem Planned.closed (planned : Planned plans) :
    ∀ id ∈ planIds plans, ∀ other, Needs plans id other → other ∈ planIds plans := by
  rintro id _ other ⟨plan,member,_,_,link,carried,rfl⟩
  exact mem_planIds.mpr (planned.linked plan member link carried)

theorem needs_inside (id other : String) (need : Needs plans id other) : id ∈ planIds plans := by
  obtain ⟨plan,member,named,_⟩ := need
  exact mem_planIds.mpr ⟨plan,member,named⟩

/-- A round after which every component is as ready as before settles nothing. -/
theorem settled_of_unchanged {rounds : Nat} {before after : List ComponentStatus}
    (first : List.Forall₂ (Marks plans resources now rounds) plans before)
    (second : List.Forall₂ (Marks plans resources now (rounds + 1)) plans after)
    (unchanged : after.map readyState = before.map readyState) : ∀ id ∈ planIds plans,
      Settled (Independent plans) (Needs plans) (rounds + 1) id ↔ Settled (Independent plans) (Needs plans) rounds id := by
  have general : ∀ {list : List ComponentPlanContract} {a b : List ComponentStatus},
      List.Forall₂ (Marks plans resources now rounds) list a →
      List.Forall₂ (Marks plans resources now (rounds + 1)) list b → b.map readyState = a.map readyState →
      ∀ plan ∈ list, Settled (Independent plans) (Needs plans) (rounds + 1) plan.componentId ↔
        Settled (Independent plans) (Needs plans) rounds plan.componentId := by
    intro list a b left
    induction left generalizing b with
    | nil => exact fun _ _ _ member => absurd member List.not_mem_nil
    | cons marks _ ih =>
      intro right same plan member
      cases right with
      | cons marks' right =>
        rw [List.map_cons,List.map_cons,List.cons.injEq] at same
        obtain rfl | later := List.mem_cons.mp member
        · rw [← marks.ready,← marks'.ready,same.1]
        · exact ih right same.2 plan later
  intro id inside
  obtain ⟨plan,member,rfl⟩ := mem_planIds.mp inside
  exact general first second unchanged plan member

/-- Stopping early leaves what all the passes would. -/
theorem marks_passes (planned : Planned plans) (others : ∀ plan ∈ plans, OthersTrue resources now plan)
    (down : List String) (passes : Nat) {rounds : Nat}
    (each : List.Forall₂ (Marks plans resources now rounds) plans statuses) :
    List.Forall₂ (Marks plans resources now (rounds + passes)) plans
      (resolvePasses plans down now passes statuses) := by
  induction passes generalizing rounds statuses with
  | zero => exact each
  | succ passes ih =>
    have next := marks_pass planned others down each
    rw [resolvePasses]
    split_ifs with unchanged
    · have stable := fun more => settled_stable planned.closed (settled_of_unchanged each next unchanged) more
      refine forall₂_imp next fun plan status member marks => ⟨marks.kept,?_,marks.hopeful⟩
      have inside := mem_planIds.mpr ⟨plan,member,rfl⟩
      rw [marks.ready]
      exact (stable 1 plan.componentId inside).trans (stable (passes + 1) plan.componentId inside).symm
    · have rest := ih next
      rw [Nat.add_right_comm,Nat.add_assoc] at rest
      exact rest

end

end Proofstorm.Readiness
