import Proofstorm.Ascent
import Proofstorm.Readiness.Conditions

/-!
Readiness as a system of equations. A component is ready by the conjunction of what is
observed of it and, if it reports on its dependencies, of the readiness of its targets.
States are ordered by what is known; what is forced is the least solution.
-/
namespace Proofstorm.Readiness
open Proofstorm.Core Publication Plans Ascent

/-! ### States by what is known -/

instance : PartialOrder ComponentConditionState where
  le a b := a = .unknown ∨ a = b
  le_refl _ := .inr rfl
  le_trans a b c := by cases a <;> cases b <;> cases c <;> simp
  le_antisymm a b := by cases a <;> cases b <;> simp

instance : OrderBot ComponentConditionState where
  bot := .unknown
  bot_le _ := .inl rfl

instance : Flat ComponentConditionState := ⟨fun _ _ below => below⟩

/-- Kleene's conjunction: false where one is, true where all are, else unknown. -/
def conjunction (states : Finset ComponentConditionState) : ComponentConditionState :=
  if .false ∈ states then .false else if .unknown ∈ states then .unknown else .true

theorem aggregateFrom_eq (sawUnknown : Bool) (states : List ComponentConditionState) :
    aggregateFrom sawUnknown states =
      if .false ∈ states then .false else if sawUnknown = true ∨ .unknown ∈ states then .unknown else .true := by
  induction states generalizing sawUnknown with
  | nil => cases sawUnknown <;> rfl
  | cons first rest ih => cases first <;> simp [aggregateFrom,ih]

/-- What the code aggregates is the conjunction. -/
theorem aggregateStates_eq (states : List ComponentConditionState) :
    aggregateStates states = conjunction states.toFinset := by
  simp [aggregateStates,aggregateFrom_eq,conjunction]

section
variable {states others : Finset ComponentConditionState}

theorem conjunction_eq_true : conjunction states = .true ↔ ∀ state ∈ states, state = .true := by
  unfold conjunction
  constructor
  · intro holds state member
    cases state with
    | true => rfl
    | false => rw [if_pos member] at holds; cases holds
    | unknown =>
      split_ifs at holds
  · intro all
    rw [if_neg fun member => absurd (all _ member) (by decide),if_neg fun member => absurd (all _ member) (by decide)]

theorem conjunction_eq_false : conjunction states = .false ↔ .false ∈ states := by
  unfold conjunction
  split_ifs with found <;> simp [found]

/-- More known of the parts is more known of the whole. -/
theorem conjunction_mono (up : ∀ state ∈ states, ∃ other ∈ others, state ≤ other)
    (down : ∀ other ∈ others, ∃ state ∈ states, state ≤ other) : conjunction states ≤ conjunction others := by
  cases whole : conjunction states with
  | unknown => exact .inl rfl
  | false =>
    obtain ⟨other,member,unknown | same⟩ := up _ (conjunction_eq_false.mp whole)
    · cases unknown
    · exact .inr (conjunction_eq_false.mpr (same ▸ member)).symm
  | true =>
    refine .inr (conjunction_eq_true.mpr fun other member => ?_).symm
    obtain ⟨state,there,below⟩ := down other member
    rw [conjunction_eq_true.mp whole state there] at below
    obtain unknown | same := below
    · cases unknown
    · exact same.symm

end

/-! ### The equations -/

/-- What a component is ready by. -/
structure Node where
  /-- The states of what is observed of it. -/
  observed : Finset ComponentConditionState
  /-- What it depends on, if it reports on that. -/
  targets : Option (Finset String)

/-- Readiness, given the state of the dependencies. -/
def Node.ready (node : Node) (dependencies : ComponentConditionState) : ComponentConditionState :=
  match node.targets with
  | none => conjunction node.observed
  | some _ => conjunction (insert dependencies node.observed)

/-- The components by their ids. -/
abbrev Network := String → Option Node

section
variable (network : Network)

/-- The readiness of a component; unknown where there is none. -/
def readiness (dependencies : String → ComponentConditionState) (id : String) : ComponentConditionState :=
  match network id with
  | none => .unknown
  | some node => node.ready (dependencies id)

/-- What every component's dependencies come to. -/
def waits (dependencies : String → ComponentConditionState) (id : String) : ComponentConditionState :=
  match (network id).bind Node.targets with
  | none => .unknown
  | some targets => conjunction (targets.image (readiness network dependencies))

/-- What is forced of every component's dependencies. -/
def forced (ids : Finset String) : String → ComponentConditionState := least (waits network) ids

variable {network}

theorem Node.ready_mono (node : Node) : Monotone node.ready := by
  intro d e below
  unfold Node.ready
  split
  · exact le_rfl
  · refine conjunction_mono (fun state member => ?_) (fun state member => ?_)
    · obtain rfl | observed := Finset.mem_insert.mp member
      · exact ⟨e,Finset.mem_insert_self _ _,below⟩
      · exact ⟨state,Finset.mem_insert_of_mem observed,le_rfl⟩
    · obtain rfl | observed := Finset.mem_insert.mp member
      · exact ⟨d,Finset.mem_insert_self _ _,below⟩
      · exact ⟨state,Finset.mem_insert_of_mem observed,le_rfl⟩

theorem readiness_mono : Monotone (readiness network) := by
  intro d e below id
  unfold readiness
  split
  · exact le_rfl
  · rename_i node _
    exact node.ready_mono (below id)

theorem waits_mono : Monotone (waits network) := by
  intro d e below id
  unfold waits
  split
  · exact le_rfl
  · refine conjunction_mono (fun state member => ?_) (fun state member => ?_)
    · obtain ⟨target,there,rfl⟩ := Finset.mem_image.mp member
      exact ⟨_,Finset.mem_image_of_mem _ there,readiness_mono below target⟩
    · obtain ⟨target,there,rfl⟩ := Finset.mem_image.mp member
      exact ⟨_,Finset.mem_image_of_mem _ there,readiness_mono below target⟩

variable {ids : Finset String}

theorem waits_outside (inside : ∀ id, network id ≠ none → id ∈ ids) (dependencies : String → ComponentConditionState) :
    ∀ id ∉ ids, waits network dependencies id = ⊥ := by
  intro id away
  have none : network id = none := by
    by_contra known
    exact away (inside id known)
  rw [waits,none]
  rfl

variable {dependencies : String → ComponentConditionState} {weak : Network}

/-- Where readiness stops changing, so do the dependencies. -/
theorem waits_fixed_of_readiness
    (same : readiness network (waits network dependencies) = readiness network dependencies) :
    waits network (waits network dependencies) = waits network dependencies := by
  funext id
  rw [waits,same]
  rfl

theorem forced_fixed (inside : ∀ id, network id ≠ none → id ∈ ids) :
    waits network (forced network ids) = forced network ids := least_fixed waits_mono (waits_outside inside)

/-- Nothing is forced that another solution leaves open. -/
theorem forced_le (solves : waits network dependencies = dependencies) :
    forced network ids ≤ dependencies := least_le waits_mono solves.le

/-! ### What holds is grounded -/

theorem Node.observed_of_ready {node : Node} {state : ComponentConditionState} (holds : node.ready state = .true) :
    (∀ observed ∈ node.observed, observed = .true) ∧ (node.targets ≠ none → state = .true) := by
  unfold Node.ready at holds
  split at holds
  · rename_i alone
    exact ⟨conjunction_eq_true.mp holds,fun waits => absurd alone waits⟩
  · have all := conjunction_eq_true.mp holds
    exact ⟨fun observed member => all observed (Finset.mem_insert_of_mem member),
      fun _ => all state (Finset.mem_insert_self _ _)⟩

theorem Node.ready_of_observed {node : Node} {state : ComponentConditionState}
    (observed : ∀ observed ∈ node.observed, observed = .true) (waits : node.targets ≠ none → state = .true) :
    node.ready state = .true := by
  unfold Node.ready
  split
  · exact conjunction_eq_true.mpr observed
  · rename_i targets known
    refine conjunction_eq_true.mpr fun other member => ?_
    obtain rfl | inside := Finset.mem_insert.mp member
    · exact waits fun alone => by rw [alone] at known; cases known
    · exact observed other inside

/-- A ready component depends on ready components only. -/
theorem ready_targets (inside : ∀ id, network id ≠ none → id ∈ ids) {id : String} {targets : Finset String}
    (waiting : (network id).bind Node.targets = some targets)
    (holds : readiness network (forced network ids) id = .true) :
    ∀ target ∈ targets, readiness network (forced network ids) target = .true := by
  obtain ⟨node,known,reported⟩ := Option.bind_eq_some_iff.mp waiting
  have settled := congrFun (forced_fixed inside) id
  rw [waits,waiting] at settled
  rw [readiness,known] at holds
  have all := (Node.observed_of_ready holds).2 fun alone => by rw [alone] at reported; cases reported
  rw [← settled] at all
  intro target member
  exact conjunction_eq_true.mp all _ (Finset.mem_image_of_mem _ member)

/-- Less is known in one network than in another of the same targets. -/
structure Weaker (weak network : Network) : Prop where
  targets : ∀ id, (weak id).bind Node.targets = (network id).bind Node.targets
  ready : ∀ dependencies id, readiness weak dependencies id ≤ readiness network dependencies id

theorem Weaker.waits_le (weaker : Weaker weak network) (dependencies : String → ComponentConditionState) :
    waits weak dependencies ≤ waits network dependencies := by
  intro id
  rw [waits,waits,weaker.targets]
  split
  · exact le_rfl
  · refine conjunction_mono (fun state member => ?_) (fun state member => ?_)
    · obtain ⟨target,there,rfl⟩ := Finset.mem_image.mp member
      exact ⟨_,Finset.mem_image_of_mem _ there,weaker.ready dependencies target⟩
    · obtain ⟨target,there,rfl⟩ := Finset.mem_image.mp member
      exact ⟨_,Finset.mem_image_of_mem _ there,weaker.ready dependencies target⟩

/-- Less known is less forced. -/
theorem Weaker.forced_ready (weaker : Weaker weak network) (inside : ∀ id, network id ≠ none → id ∈ ids) :
    readiness weak (forced weak ids) ≤ readiness network (forced network ids) := by
  have below : forced weak ids ≤ forced network ids :=
    least_le waits_mono ((weaker.waits_le (forced network ids)).trans (forced_fixed inside).le)
  exact (readiness_mono below).trans (weaker.ready (forced network ids))

/-- What holds in the stronger network holds in the weaker where they agree on it and on
    everything it depends on. The induction is on the step at which it was forced. -/
theorem Weaker.holds (weaker : Weaker weak network) (inside : ∀ id, network id ≠ none → id ∈ ids)
    (inside' : ∀ id, weak id ≠ none → id ∈ ids) (agree : String → Prop) (same : ∀ id, agree id → weak id = network id)
    (closed : ∀ id, agree id → ∀ targets, (network id).bind Node.targets = some targets → ∀ target ∈ targets,
      readiness network (forced network ids) target = .true → agree target) {id : String} (agrees : agree id)
    (holds : readiness network (forced network ids) id = .true) :
    readiness weak (forced weak ids) id = .true := by
  have below : ∀ step, (waits network)^[step] ⊥ ≤ forced network ids :=
    fun step => iterate_le waits_mono (forced_fixed inside).le step
  have stepwise : ∀ step, ∀ id, agree id → readiness network ((waits network)^[step] ⊥) id = .true →
      readiness weak (forced weak ids) id = .true := by
    intro step
    induction step with
    | zero =>
      intro id agrees holds
      rw [readiness] at holds ⊢
      rw [same id agrees]
      cases known : network id with
      | none => rw [known] at holds; cases holds
      | some node =>
        rw [known] at holds
        obtain ⟨observed,waiting⟩ := Node.observed_of_ready holds
        exact Node.ready_of_observed observed fun reported => by cases waiting reported
    | succ step ih =>
      intro id agrees holds
      rw [readiness] at holds ⊢
      rw [same id agrees]
      cases known : network id with
      | none => rw [known] at holds; cases holds
      | some node =>
        rw [known] at holds
        obtain ⟨observed,waiting⟩ := Node.observed_of_ready holds
        refine Node.ready_of_observed observed fun reported => ?_
        obtain ⟨targets,reports⟩ := Option.ne_none_iff_exists'.mp reported
        have leads : (network id).bind Node.targets = some targets := by rw [known,Option.bind_some,reports]
        have all := waiting reported
        rw [Function.iterate_succ_apply',waits,leads] at all
        rw [← forced_fixed inside',waits,weaker.targets,leads]
        refine conjunction_eq_true.mpr fun state member => ?_
        obtain ⟨target,there,rfl⟩ := Finset.mem_image.mp member
        have ready := conjunction_eq_true.mp all _ (Finset.mem_image_of_mem _ there)
        have forced_too : readiness network (forced network ids) target = .true := by
          obtain unknown | equal := readiness_mono (below step) target
          · rw [ready] at unknown; cases unknown
          · exact equal ▸ ready
        exact ih target (closed id agrees targets leads target there forced_too) ready
  exact stepwise ids.card id agrees holds

end

end Proofstorm.Readiness
