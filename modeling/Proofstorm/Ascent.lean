import Mathlib.Data.Finset.Card
import Mathlib.Data.Finset.Filter
import Mathlib.Order.Iterate

/-!
Iterating a monotone function from the least element. Where the elements are families of
values that each rise at most once, from the least value to a final one, the iterates stop
rising after as many steps as there are members that can rise, and where they stop is
the least of the function's fixed points.
-/
namespace Proofstorm.Ascent

section
variable {α : Type} [PartialOrder α] [OrderBot α] {f : α → α}

theorem iterate_mono (monotone : Monotone f) : Monotone fun n => f^[n] ⊥ :=
  monotone.monotone_iterate_of_le_map bot_le

/-- No iterate passes what the function does not raise. -/
theorem iterate_le (monotone : Monotone f) {x : α} (closed : f x ≤ x) (n : ℕ) : f^[n] ⊥ ≤ x := by
  induction n with
  | zero => exact bot_le
  | succ n ih =>
    rw [Function.iterate_succ_apply']
    exact (monotone ih).trans closed

/-- Where the iterates have stopped they stay. -/
theorem iterate_stays {n : ℕ} (fixed : f (f^[n] ⊥) = f^[n] ⊥) (more : ℕ) : f^[n + more] ⊥ = f^[n] ⊥ := by
  rw [Nat.add_comm,Function.iterate_add_apply]
  exact Function.iterate_fixed fixed more

/-- All fixed iterates are one: the least fixed point. -/
theorem iterate_unique (monotone : Monotone f) {n m : ℕ} (fixed : f (f^[n] ⊥) = f^[n] ⊥)
    (also : f (f^[m] ⊥) = f^[m] ⊥) : f^[n] ⊥ = f^[m] ⊥ :=
  le_antisymm (iterate_le monotone also.le n) (iterate_le monotone fixed.le m)

end

/-! ### Families of values that rise once -/

/-- A value is below only itself, or it is the least. -/
class Flat (β : Type) [PartialOrder β] [OrderBot β] : Prop where
  flat : ∀ a b : β, a ≤ b → a = ⊥ ∨ a = b

section
variable {ι β : Type} [PartialOrder β] [OrderBot β] {f : (ι → β) → ι → β} {support : Finset ι}

/-- The least fixed point of a function on families with so many members that rise. -/
def least (f : (ι → β) → ι → β) (support : Finset ι) : ι → β := f^[support.card] ⊥

theorem least_le (monotone : Monotone f) {d : ι → β} (closed : f d ≤ d) : least f support ≤ d :=
  iterate_le monotone closed support.card

variable [DecidableEq β]

/-- The members that have risen. -/
def risen (support : Finset ι) (d : ι → β) : Finset ι := support.filter fun i => d i ≠ ⊥

theorem mem_risen {d : ι → β} {i : ι} : i ∈ risen support d ↔ i ∈ support ∧ d i ≠ ⊥ := by
  rw [risen,Finset.mem_filter]

variable [Flat β]

/-- Something rises wherever two families differ. -/
theorem risen_ssubset {d e : ι → β} (below : d ≤ e) (differ : d ≠ e) (outside : ∀ i ∉ support, e i = ⊥) :
    risen support d ⊂ risen support e := by
  have kept : risen support d ⊆ risen support e := by
    intro i member
    obtain ⟨inside,known⟩ := mem_risen.mp member
    refine mem_risen.mpr ⟨inside,?_⟩
    obtain least | same := Flat.flat _ _ (below i)
    · exact absurd least known
    · exact same ▸ known
  refine kept.ssubset_of_ne fun equal => differ (funext fun i => ?_)
  obtain least | same := Flat.flat _ _ (below i)
  · by_cases known : e i = ⊥
    · rw [least,known]
    · have inside : i ∈ support := by
        by_contra away
        exact known (outside i away)
      have member : i ∈ risen support d := equal ▸ mem_risen.mpr ⟨inside,known⟩
      exact absurd least (mem_risen.mp member).2
  · exact same

section
variable (monotone : Monotone f) (outside : ∀ d, ∀ i ∉ support, f d i = ⊥)
include monotone outside

/-- After as many steps as there are members the iterates have stopped. -/
theorem iterate_card :
    f (f^[support.card] ⊥) = f^[support.card] ⊥ := by
  have rises : ∀ n, f (f^[n] ⊥) ≠ f^[n] ⊥ → n + 1 ≤ (risen support (f^[n + 1] ⊥)).card := by
    intro n
    induction n with
    | zero =>
      intro moved
      rw [Function.iterate_succ_apply']
      have more := Finset.card_lt_card (risen_ssubset (bot_le : ⊥ ≤ f ⊥) (Ne.symm moved) (outside ⊥))
      exact Nat.lt_of_le_of_lt (Nat.zero_le _) more
    | succ n ih =>
      intro moved
      have before : f (f^[n] ⊥) ≠ f^[n] ⊥ := by
        intro fixed
        rw [Function.iterate_succ_apply',fixed] at moved
        exact moved fixed
      have ascent : f^[n + 1] ⊥ ≤ f (f^[n + 1] ⊥) := by
        rw [← Function.iterate_succ_apply' f (n + 1)]
        exact iterate_mono monotone (Nat.le_succ (n + 1))
      have more := Finset.card_lt_card (risen_ssubset ascent (Ne.symm moved) (outside _))
      rw [← Function.iterate_succ_apply' f (n + 1)] at more
      exact Nat.lt_of_le_of_lt (ih before) more
  by_contra moved
  have many := rises support.card moved
  have few : (risen support (f^[support.card + 1] ⊥)).card ≤ support.card :=
    Finset.card_le_card (Finset.filter_subset _ _)
  omega

theorem least_fixed :
    f (least f support) = least f support := iterate_card monotone outside

/-- A fixed iterate, or one as late as there are members, is the least fixed point. -/
theorem iterate_eq_least {n : ℕ}
    (stopped : f (f^[n] ⊥) = f^[n] ⊥ ∨ support.card ≤ n) : f^[n] ⊥ = least f support := by
  have fixed := iterate_card monotone outside
  obtain at_rest | late := stopped
  · exact iterate_unique monotone at_rest fixed
  · obtain ⟨more,rfl⟩ := Nat.exists_eq_add_of_le late
    exact iterate_stays fixed more
end

end

end Proofstorm.Ascent
