import Proofstorm.Authoring.Payments
import Proofstorm.Entries

/-!
The methods that a component's links bind, whatever the order of the links. The
loop of `bound_methods` accepts a list of bindings where each is a payment in one
supported unit and no method comes twice (`Binds`), and what it returns is the set
of those methods.
-/
namespace Proofstorm.Validation
open Proofstorm.Core

theorem PaymentMethod.rank_injective : Function.Injective Core.PaymentMethod.rank := by
  intro a b same
  cases a <;> cases b <;> simp_all [Core.PaymentMethod.rank]

/-- A set of methods does not depend on the order they were seen in. -/
theorem methodSet_perm {a b : List PaymentMethod} (perm : a.Perm b) : methodSet a = methodSet b := by
  unfold methodSet
  rw [Entries.insertionSort_eq (f := fun method : PaymentMethod => toLex method.rank) perm]
  intro x _ y _ same
  exact PaymentMethod.rank_injective (toLex.injective same)

/-- The method and the unit of a payment binding. -/
def paymentOf : Option DependencyBinding → Option (PaymentMethod × String)
  | some (.payment method unit) => some (method,unit)
  | _ => none

def payments (bindings : List (Option DependencyBinding)) : List (PaymentMethod × String) :=
  bindings.filterMap paymentOf

/-- What the loop asks of bindings, after it has met `unit` and seen `seen`. -/
structure Binds (units : List String) (unit : Option String) (seen : List PaymentMethod)
    (bindings : List (Option DependencyBinding)) : Prop where
  payment : ∀ binding ∈ bindings, (paymentOf binding).isSome
  supported : ∀ pair ∈ payments bindings, pair.2 ∈ units
  unit : ∀ pair ∈ payments bindings, ∀ bound ∈ unit, bound = pair.2
  one : ∀ pair ∈ payments bindings, ∀ other ∈ payments bindings, pair.2 = other.2
  once : ((payments bindings).map Prod.fst).Nodup
  fresh : ∀ pair ∈ payments bindings, pair.1 ∉ seen

/-- The unit that the loop ends with. -/
def lastUnit (unit : Option String) : List (Option DependencyBinding) → Option String
  | [] => unit
  | some (.payment _ bound) :: rest => lastUnit (some bound) rest
  | _ :: rest => lastUnit unit rest

theorem isSome_lastUnit {unit : Option String} (there : unit.isSome) (bindings : List (Option DependencyBinding)) :
    (lastUnit unit bindings).isSome := by
  induction bindings generalizing unit with
  | nil => exact there
  | cons binding rest ih =>
    cases binding with
    | none => exact ih there
    | some binding =>
      cases binding with
      | payment method bound => exact @ih (some bound) rfl
      | chain | ark | spark | database | authentication => exact ih there

theorem Binds.cons {units : List String} {unit : Option String} {seen : List PaymentMethod} {method : PaymentMethod}
    {bound : String} {rest : List (Option DependencyBinding)} :
    Binds units unit seen (some (.payment method bound) :: rest) ↔
      bound ∈ units ∧ (∀ u ∈ unit, u = bound) ∧ method ∉ seen ∧ Binds units (some bound) (method :: seen) rest := by
  have shape : payments (some (.payment method bound) :: rest) = (method,bound) :: payments rest := rfl
  constructor
  · intro binds
    have supported := binds.supported
    have unit' := binds.unit
    have one := binds.one
    have once := binds.once
    have fresh := binds.fresh
    rw [shape] at supported unit' one once fresh
    rw [List.map_cons,List.nodup_cons] at once
    refine ⟨supported _ List.mem_cons_self,unit' _ List.mem_cons_self,fresh _ List.mem_cons_self,?_⟩
    constructor
    · exact fun binding member => binds.payment binding (List.mem_cons_of_mem _ member)
    · exact fun pair member => supported pair (List.mem_cons_of_mem _ member)
    · rintro pair member u ⟨⟩
      exact one _ List.mem_cons_self pair (List.mem_cons_of_mem _ member)
    · exact fun pair member other member' =>
        one pair (List.mem_cons_of_mem _ member) other (List.mem_cons_of_mem _ member')
    · exact once.2
    · intro pair member taken
      obtain same | before := List.mem_cons.mp taken
      · exact once.1 (List.mem_map.mpr ⟨pair,member,same⟩)
      · exact fresh pair (List.mem_cons_of_mem _ member) before
  · rintro ⟨supported,unit',fresh,binds⟩
    constructor
    · intro binding member
      obtain rfl | later := List.mem_cons.mp member
      · rfl
      · exact binds.payment binding later
    · rw [shape]
      intro pair member
      obtain rfl | later := List.mem_cons.mp member
      · exact supported
      · exact binds.supported pair later
    · rw [shape]
      intro pair member u is
      obtain rfl | later := List.mem_cons.mp member
      · exact unit' u is
      · exact (unit' u is).trans (binds.unit pair later bound rfl)
    · rw [shape]
      intro pair member other member'
      obtain rfl | later := List.mem_cons.mp member
      · obtain rfl | later' := List.mem_cons.mp member'
        · rfl
        · exact binds.unit other later' bound rfl
      · obtain rfl | later' := List.mem_cons.mp member'
        · exact (binds.unit pair later bound rfl).symm
        · exact binds.one pair later other later'
    · rw [shape,List.map_cons,List.nodup_cons]
      refine ⟨fun taken => ?_,binds.once⟩
      obtain ⟨pair,member,same⟩ := List.mem_map.mp taken
      exact binds.fresh pair member (List.mem_cons.mpr (.inl same))
    · rw [shape]
      intro pair member
      obtain rfl | later := List.mem_cons.mp member
      · exact fresh
      · exact fun before => binds.fresh pair later (List.mem_cons_of_mem _ before)

/-- The loop returns exactly on such bindings, with their methods. -/
theorem bindMethods_iff {units : List String} {unit : Option String} {seen : List PaymentMethod}
    {bindings : List (Option DependencyBinding)} {result : Option String × List PaymentMethod} :
    ProcessorProfile.bindMethods units unit seen bindings = some result ↔
      Binds units unit seen bindings ∧
        result = (lastUnit unit bindings,((payments bindings).map Prod.fst).reverse ++ seen) := by
  induction bindings generalizing unit seen with
  | nil =>
    have empty : Binds units unit seen [] := by
      constructor <;> simp [payments]
    simp [ProcessorProfile.bindMethods,empty,lastUnit,payments,eq_comm]
  | cons binding rest ih =>
    have other (none : paymentOf binding = none) : ¬ Binds units unit seen (binding :: rest) := by
      intro binds
      have some := binds.payment binding List.mem_cons_self
      rw [none] at some
      cases some
    cases binding with
    | none => simpa [ProcessorProfile.bindMethods] using fun binds => absurd binds (other rfl)
    | some binding =>
      cases binding with
      | payment method bound =>
        rw [Binds.cons]
        unfold ProcessorProfile.bindMethods
        split_ifs with refused
        · simp only [false_iff]
          rintro ⟨⟨supported,unit',fresh,_⟩,_⟩
          simp only [Bool.or_eq_true,Bool.not_eq_true',List.contains_eq_mem,decide_eq_true_eq,
            decide_eq_false_iff_not] at refused
          obtain (unsupported | differs) | taken := refused
          · exact unsupported supported
          · cases unit with
            | none => cases differs
            | some u => exact absurd (unit' u rfl) (by simpa using differs)
          · exact fresh taken
        · simp only [Bool.or_eq_true,Bool.not_eq_true',List.contains_eq_mem,decide_eq_true_eq,
            decide_eq_false_iff_not,not_or,not_not] at refused
          obtain ⟨⟨supported,same⟩,fresh⟩ := refused
          have unit' : ∀ u ∈ unit, u = bound := by
            intro u is
            by_contra differ
            exact same (by simp [Option.mem_def.mp is,differ])
          have shape : payments (some (.payment method bound) :: rest) = (method,bound) :: payments rest := rfl
          rw [ih,shape]
          simp [supported,fresh,lastUnit]
          intro _ _
          exact unit'
      | chain | ark | spark | database | authentication =>
        simpa [ProcessorProfile.bindMethods] using fun binds => absurd binds (other rfl)

end Proofstorm.Validation
