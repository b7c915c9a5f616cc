import Mathlib.Data.Finset.Card
import Mathlib.Data.Finset.Filter
import Mathlib.Data.Fintype.EquivFin
import Mathlib.Order.WellFounded
import Mathlib.Logic.Relation

/-!
Things that wait for each other, settled in rounds. Some are settled from the start
and need nothing; in a round everything is settled whose needs were settled in the
round before. Over a finite collection as many rounds as it has members settle all of
it exactly when no need runs in a circle.
-/
namespace Proofstorm.Waiting

section
variable {α : Type} (start : α → Prop) (needs : α → α → Prop)

/-- What is settled after so many rounds. -/
def Settled : Nat → α → Prop
  | 0, x => start x
  | rounds + 1, x => ∀ y, needs x y → Settled rounds y

/-- No need runs in a circle. -/
def Acyclic : Prop := ∀ x, ¬ Relation.TransGen needs x x

variable {start needs}

/-- Another round unsettles nothing. -/
theorem Settled.succ (free : ∀ x, start x → ∀ y, ¬ needs x y) {rounds : Nat} {x : α}
    (settled : Settled start needs rounds x) : Settled start needs (rounds + 1) x := by
  induction rounds generalizing x with
  | zero => exact fun y need => absurd need (free x settled y)
  | succ rounds ih => exact fun y need => ih (settled y need)

theorem settled_of_start (free : ∀ x, start x → ∀ y, ¬ needs x y) {x : α} (settled : start x) (rounds : Nat) :
    Settled start needs rounds x := by
  cases rounds with
  | zero => exact settled
  | succ rounds => exact fun y need => absurd need (free x settled y)

/-- A member of a circle is never settled. -/
theorem not_settled_of_circle (free : ∀ x, start x → ∀ y, ¬ needs x y) {rounds : Nat} {x : α}
    (circle : Relation.TransGen needs x x) : ¬ Settled start needs rounds x := by
  induction rounds generalizing x with
  | zero =>
    intro settled
    obtain ⟨y,need,_⟩ := Relation.TransGen.head'_iff.mp circle
    exact free x settled y need
  | succ rounds ih =>
    intro settled
    obtain ⟨y,need,back⟩ := Relation.TransGen.head'_iff.mp circle
    exact ih (Relation.TransGen.tail' back need) (settled y need)

/-! ### A finite collection -/

section
variable {members : Finset α}

/-- Without circles every part of the collection has a member that needs none of the part. -/
theorem exists_free (acyclic : Acyclic needs) {part : Finset α} (inhabited : part.Nonempty) :
    ∃ x ∈ part, ∀ y ∈ part, ¬ needs x y := by
  let below : part → part → Prop := fun a b => Relation.TransGen needs b.1 a.1
  have transitive : IsTrans part below := ⟨fun _ _ _ first second => second.trans first⟩
  have irreflexive : Std.Irrefl below := ⟨fun a => acyclic a.1⟩
  have founded : WellFounded below := Finite.wellFounded_of_trans_of_irrefl below
  obtain ⟨x,there⟩ := inhabited
  obtain ⟨least,_,minimal⟩ := founded.has_min Set.univ ⟨⟨x,there⟩,trivial⟩
  exact ⟨least.1,least.2,fun y member need => minimal ⟨y,member⟩ trivial (.single need)⟩

open Classical in
/-- What is not settled after so many rounds. -/
noncomputable def unsettled (start : α → Prop) (needs : α → α → Prop) (members : Finset α) (rounds : Nat) : Finset α :=
  members.filter fun x => ¬ Settled start needs rounds x

theorem mem_unsettled {rounds : Nat} {x : α} :
    x ∈ unsettled start needs members rounds ↔ x ∈ members ∧ ¬ Settled start needs rounds x := by
  classical
  simp only [unsettled,Finset.mem_filter]

section
variable (free : ∀ x, start x → ∀ y, ¬ needs x y) (closed : ∀ x ∈ members, ∀ y, needs x y → y ∈ members)
include free closed

/-- Without circles every round settles something, until nothing is left. -/
theorem unsettled_shrinks (acyclic : Acyclic needs) {rounds : Nat}
    (left : (unsettled start needs members rounds).Nonempty) :
    (unsettled start needs members (rounds + 1)).card < (unsettled start needs members rounds).card := by
  obtain ⟨x,there,alone⟩ := exists_free acyclic left
  refine Finset.card_lt_card (Finset.ssubset_iff_of_subset ?_ |>.mpr ⟨x,there,?_⟩)
  · intro y still
    obtain ⟨member,open_⟩ := mem_unsettled.mp still
    exact mem_unsettled.mpr ⟨member,fun settled => open_ (settled.succ free)⟩
  · intro still
    obtain ⟨member,open_⟩ := mem_unsettled.mp still
    refine open_ fun y need => ?_
    by_contra waiting
    exact alone y (mem_unsettled.mpr ⟨closed x member y need,waiting⟩) need

theorem card_unsettled (acyclic : Acyclic needs) (rounds : Nat) :
    (unsettled start needs members rounds).card ≤ members.card - rounds := by
  induction rounds with
  | zero =>
    classical
    exact Finset.card_filter_le _ _
  | succ rounds ih =>
    by_cases left : (unsettled start needs members rounds).Nonempty
    · have := unsettled_shrinks free closed acyclic left
      omega
    · have none_left : unsettled start needs members (rounds + 1) ⊆ unsettled start needs members rounds := by
        intro y still
        obtain ⟨member,open_⟩ := mem_unsettled.mp still
        exact mem_unsettled.mpr ⟨member,fun settled => open_ (settled.succ free)⟩
      rw [Finset.not_nonempty_iff_eq_empty] at left
      rw [left,Finset.subset_empty] at none_left
      rw [none_left,Finset.card_empty]
      exact Nat.zero_le _

/-- As many rounds as there are members settle all of them, unless needs run in a circle. -/
theorem settled_iff_acyclic (inside : ∀ x y, needs x y → x ∈ members) :
    (∀ x ∈ members, Settled start needs members.card x) ↔ Acyclic needs := by
  constructor
  · intro settled x circle
    obtain ⟨y,need,_⟩ := Relation.TransGen.head'_iff.mp circle
    exact not_settled_of_circle free circle (settled x (inside x y need))
  · intro acyclic x member
    have none_left := card_unsettled free closed acyclic members.card
    rw [Nat.sub_self,Nat.le_zero,Finset.card_eq_zero] at none_left
    by_contra waiting
    exact Finset.notMem_empty x (none_left ▸ mem_unsettled.mpr ⟨member,waiting⟩)
end

/-- A round that settles nothing new is the last that matters. -/
theorem settled_stable (closed : ∀ x ∈ members, ∀ y, needs x y → y ∈ members) {rounds : Nat}
    (still : ∀ x ∈ members, Settled start needs (rounds + 1) x ↔ Settled start needs rounds x) (more : Nat) :
    ∀ x ∈ members, Settled start needs (rounds + more) x ↔ Settled start needs rounds x := by
  induction more with
  | zero => exact fun _ _ => Iff.rfl
  | succ more ih =>
    intro x member
    rw [← still x member]
    exact forall_congr' fun y => imp_congr_right fun need => ih y (closed x member y need)

end

end

end Proofstorm.Waiting
