import Mathlib.Algebra.Order.Monoid.Prod
import Proofstorm.Interleaving
import Proofstorm.Table

/-!
Views that a weight tells apart. `Advances` relates two values of a view of which
the second is not lighter than the first, and as heavy only where it is the same.
Where every step of a run relates the views before and after it so, two points
with equal weights have one view, and so has every point between them
(`Linked.unchanged`). The weight of rows is the sum of theirs: a row that is added
and a row that is rewritten heavier both advance it.
-/
namespace Proofstorm
universe u v

/-- No less weight, and as much only for the same value. -/
structure Advances {α : Type u} {μ : Type v} [PartialOrder μ] (weight : α → μ) (a b : α) : Prop where
  grows : weight a ≤ weight b
  tells : weight b = weight a → b = a

section
variable {α : Type u} {μ : Type v} [PartialOrder μ] {weight : α → μ} {a b c : α}

theorem Advances.refl (weight : α → μ) (a : α) : Advances weight a a := ⟨le_refl _,fun _ => rfl⟩

theorem Advances.trans (first : Advances weight a b) (second : Advances weight b c) : Advances weight a c where
  grows := first.grows.trans second.grows
  tells same := by
    have back : weight b ≤ weight a := second.grows.trans_eq same
    have middle := le_antisymm back first.grows
    exact (second.tells (same.trans middle.symm)).trans (first.tells middle)

/-- What lies between two values of one weight is the first of them. -/
theorem Advances.between (first : Advances weight a b) (second : Advances weight b c) (same : weight c = weight a) :
    b = a :=
  first.tells (le_antisymm (second.grows.trans_eq same) first.grows)
end

/-! ### Rows -/

section
variable {α : Type u} {μ : Type v} [AddCommMonoid μ] {weight : α → μ}

/-- The weight of all the rows. -/
def total (weight : α → μ) (list : List α) : μ := (list.map weight).sum

@[simp] theorem total_nil : total weight [] = 0 := rfl

@[simp] theorem total_cons (a : α) (list : List α) : total weight (a :: list) = weight a + total weight list := rfl

variable [PartialOrder μ] [IsOrderedCancelAddMonoid μ]

/-- A row of some weight is added. -/
theorem Advances.append (list : List α) {a : α} (heavy : 0 < weight a) : Advances (total weight) list (list ++ [a]) := by
  have more : total weight list < total weight (list ++ [a]) := by
    simpa [total] using heavy
  exact ⟨more.le,fun same => absurd same more.ne'⟩

/-- Each row stays or becomes heavier. -/
theorem Advances.map {f : α → α} (list : List α) (each : ∀ a ∈ list, f a = a ∨ weight a < weight (f a)) :
    Advances (total weight) list (list.map f) := by
  induction list with
  | nil => exact .refl _ _
  | cons head tail ih =>
    obtain ⟨grows,tells⟩ := ih fun a member => each a (List.mem_cons_of_mem head member)
    simp only [List.map_cons]
    rcases each head List.mem_cons_self with same | heavier
    · rw [same]
      constructor
      · exact add_le_add_right grows _
      · intro alike
        rw [tells (add_left_cancel alike)]
    · have more : total weight (head :: tail) < total weight (f head :: tail.map f) := add_lt_add_of_lt_of_le heavier grows
      exact ⟨more.le,fun same => absurd same more.ne'⟩
end

namespace Table

section
universe w
variable {ρ : Type u} {κ : Type v} [Keyed ρ κ] {p : ρ → Prop} [DecidablePred p]

theorem filter_delete (table : Table ρ) (q : ρ → Prop) [DecidablePred q] (other : ∀ row, q row → ¬ p row) :
    (table.delete q).rows.filter p = table.rows.filter p := by
  simp only [delete,List.filter_filter]
  refine List.filter_congr fun row _ => ?_
  by_cases gone : q row
  · simp [gone,other row gone]
  · simp [gone]

variable {μ : Type w} [AddCommMonoid μ] [PartialOrder μ] [IsOrderedCancelAddMonoid μ] {weight : ρ → μ}

theorem advances_insert [DecidableEq κ] (table : Table ρ) {row : ρ} (heavy : 0 < weight row) :
    Advances (total weight) (table.rows.filter p) ((table.insert row).rows.filter p) := by
  by_cases free : table.find (key row) = none
  · rw [insert_of_free free,List.filter_append]
    by_cases chosen : p row
    · simpa [chosen] using Advances.append _ heavy
    · simpa [chosen] using Advances.refl _ _
  · rw [insert_of_taken (find_isSome.mp (Option.isSome_iff_ne_none.mpr free))]
    exact .refl _ _

/-- Rows that are rewritten stay among the rows in view, and each is as it was or heavier. -/
theorem advances_update {table : Table ρ} {q : ρ → Prop} [DecidablePred q] {f : ρ → ρ}
    (keeps : ∀ row, key (f row) = key row) (kind : ∀ row, p (f row) ↔ p row)
    (each : ∀ row ∈ table, q row → f row = row ∨ weight row < weight (f row)) :
    Advances (total weight) (table.rows.filter p) ((table.update q f keeps).rows.filter p) := by
  have view : (table.update q f keeps).rows.filter p =
      (table.rows.filter p).map fun row => if q row then f row else row := by
    simp only [update,List.filter_map]
    congr 2
    funext row
    by_cases chosen : q row <;> simp [chosen,kind]
  rw [view]
  refine .map _ fun row member => ?_
  by_cases chosen : q row
  · rw [if_pos chosen]
    exact each row (List.mem_filter.mp member).1 chosen
  · exact .inl (if_neg chosen)
end

end Table

/-! ### Runs -/

namespace Interleaving
open Relation (ReflTransGen)
section
variable {Request State Statement Reply : Type}

/-- The state that a log leads to. -/
def stateAfter (initial : State) : List (Event Request State Statement Reply) → State
  | [] => initial
  | event :: _ => event.after

theorem Linked.stateAfter_eq {initial state : State} {log : List (Event Request State Statement Reply)}
    (linked : Linked initial log state) : stateAfter initial log = state := by
  cases log with
  | nil => exact linked.symm
  | cons event older => exact linked.1.symm

variable {α : Type u} {μ : Type v} [PartialOrder μ] {weight : α → μ} {view : State → α} {initial state : State}
  {between older : List (Event Request State Statement Reply)}

theorem Linked.suffix {newer : List (Event Request State Statement Reply)}
    (linked : Linked initial (newer ++ older) state) : Linked initial older (stateAfter initial older) := by
  induction newer generalizing state with
  | nil => exact linked.stateAfter_eq.symm ▸ linked
  | cons event newer ih => exact ih linked.2

/-- The steps of a stretch of a log. -/
theorem Linked.path {R : State → State → Prop} (linked : Linked initial (between ++ older) state)
    (steps : ∀ event ∈ between, R event.before event.after) : ReflTransGen R (stateAfter initial older) state := by
  induction between generalizing state with
  | nil => exact linked.stateAfter_eq ▸ .refl
  | cons event between ih =>
    obtain ⟨rfl,linked⟩ := linked
    have earlier := ih linked fun other member => steps other (List.mem_cons_of_mem event member)
    exact earlier.tail (steps event List.mem_cons_self)

/-- Steps that advance a view advance it from each point to every later one. -/
theorem Linked.advances (linked : Linked initial (between ++ older) state)
    (steps : ∀ event ∈ between, Advances weight (view event.before) (view event.after)) :
    Advances weight (view (stateAfter initial older)) (view state) := by
  have path := linked.path (R := fun before after => Advances weight (view before) (view after)) steps
  clear linked
  induction path with
  | refl => exact .refl _ _
  | tail _ step earlier => exact earlier.trans step

/-- Two points with one weight have one view, and so have all points between them. -/
theorem Linked.unchanged (linked : Linked initial (between ++ older) state)
    (steps : ∀ event ∈ between, Advances weight (view event.before) (view event.after))
    (same : weight (view state) = weight (view (stateAfter initial older)))
    {later earlier : List (Event Request State Statement Reply)} (split : between = later ++ earlier) :
    view (stateAfter initial (earlier ++ older)) = view (stateAfter initial older) := by
  subst split
  rw [List.append_assoc] at linked
  have first := linked.suffix.advances fun event member => steps event (List.mem_append_right _ member)
  have second := linked.advances fun event member => steps event (List.mem_append_left _ member)
  exact first.between second same
end

end Interleaving

end Proofstorm
