import Mathlib.Data.List.Sort
import Mathlib.Data.List.Dedup

/-!
Ordered maps and priority queues. A `BTreeMap` is the extensional tree map of the
standard library: two maps with the same entries are one map. A `Heap` keeps what
it holds from the least entry up and carries that order as a field, so that `pop`
is the head of the list. What a heap holds is counted by a predicate (`count`);
each operation has one lemma that says how it moves every count.
-/
namespace Proofstorm
set_option linter.unusedSectionVars false
universe u v

/-- An ordered map, as `BTreeMap<κ, ν>`. -/
abbrev BTreeMap (κ : Type u) (ν : Type v) [Ord κ] : Type (max u v) := Std.ExtTreeMap κ ν

namespace BTreeMap

variable {κ : Type u} {ν : Type v} [Ord κ] [Std.TransOrd κ] [Std.LawfulEqOrd κ]

/-- The map collected from pairs; of two pairs with one key the later stays. -/
def collect (pairs : List (κ × ν)) : BTreeMap κ ν := Std.ExtTreeMap.ofList pairs

variable {map : BTreeMap κ ν}

variable {k a : κ} {v : ν}

theorem mem_iff : k ∈ map ↔ ∃ v, map[k]? = some v := by
  rw [Std.ExtTreeMap.mem_iff_isSome_getElem?,Option.isSome_iff_exists]

theorem not_mem_iff : k ∉ map ↔ map[k]? = none := by
  rw [Std.ExtTreeMap.mem_iff_isSome_getElem?,Option.not_isSome_iff_eq_none]

theorem mem_of_get (found : map[k]? = some v) : k ∈ map :=
  mem_iff.mpr ⟨v,found⟩

theorem get_insert [DecidableEq κ] (map : BTreeMap κ ν) (k : κ) (v : ν) (a : κ) :
    (map.insert k v)[a]? = if k = a then some v else map[a]? := by
  simp [Std.ExtTreeMap.getElem?_insert]

theorem of_get_insert {w : ν} (found : (map.insert k v)[a]? = some w) :
    a = k ∧ w = v ∨ a ≠ k ∧ map[a]? = some w := by
  classical
  rw [get_insert] at found
  split at found
  · rename_i same
    exact .inl ⟨same.symm,(Option.some.inj found).symm⟩
  · rename_i other
    exact .inr ⟨Ne.symm other,found⟩

theorem get_erase [DecidableEq κ] (map : BTreeMap κ ν) (k a : κ) :
    (map.erase k)[a]? = if k = a then none else map[a]? := by
  simp [Std.ExtTreeMap.getElem?_erase]

theorem of_get_erase (found : (map.erase k)[a]? = some v) :
    a ≠ k ∧ map[a]? = some v := by
  classical
  rw [get_erase] at found
  split at found
  · cases found
  · rename_i other
    exact ⟨Ne.symm other,found⟩

theorem get_filter (map : BTreeMap κ ν) (p : κ → ν → Bool) (k : κ) : (map.filter p)[k]? = map[k]?.filter (p k) :=
  Std.ExtTreeMap.getElem?_filter'

theorem insert_get (found : map[k]? = some v) : map.insert k v = map := by
  classical
  refine Std.ExtTreeMap.ext_getElem? fun a => ?_
  rw [get_insert]
  split
  · rename_i same
    exact same ▸ found.symm
  · rfl

/-- Where no key comes twice, the collected map holds the pairs. -/
theorem get_collect {pairs : List (κ × ν)} (distinct : (pairs.map Prod.fst).Nodup) {k : κ} {v : ν} :
    (collect pairs)[k]? = some v ↔ (k,v) ∈ pairs := by
  have apart : pairs.Pairwise fun a b => ¬ compare a.1 b.1 = .eq := by
    refine (List.pairwise_map.mp distinct).imp fun differ same => differ ?_
    exact Std.LawfulEqOrd.compare_eq_iff_eq.mp same
  constructor
  · intro found
    have listed : k ∈ pairs.map Prod.fst := by
      classical
      have present := mem_of_get found
      rw [collect,Std.ExtTreeMap.mem_ofList] at present
      simpa using present
    obtain ⟨⟨k',v'⟩,member,rfl⟩ := List.mem_map.mp listed
    have here : (collect pairs)[k']? = some v' := Std.ExtTreeMap.getElem?_ofList_of_mem Std.ReflCmp.compare_self apart member
    rw [here] at found
    cases found
    exact member
  · intro member
    exact Std.ExtTreeMap.getElem?_ofList_of_mem Std.ReflCmp.compare_self apart member

/-! The entries in the order of their keys. -/

open Std.DTreeMap.Internal in
theorem values_eq (map : BTreeMap κ ν) : map.values = map.toList.map Prod.snd := by
  obtain ⟨⟨tree⟩⟩ := map
  induction tree using Quotient.ind with
  | _ tree =>
    show tree.inner.values = (Impl.Const.toList tree.inner).map Prod.snd
    rw [Impl.values_eq_map_snd,Impl.Const.toList_eq_toListModel_map,List.map_map]
    rfl

theorem toList_nodup (map : BTreeMap κ ν) : map.toList.Nodup := by
  have := map.distinct_keys_toList
  refine this.imp fun {a b} apart same => apart ?_
  subst same
  exact Std.ReflCmp.compare_self

theorem toList_insert [DecidableEq κ] {k : κ} (v : ν) (new : k ∉ map) :
    (map.insert k v).toList.Perm ((k,v) :: map.toList) := by
  refine (List.perm_ext_iff_of_nodup (toList_nodup _) (List.nodup_cons.mpr ⟨?_,toList_nodup _⟩)).mpr ?_
  · intro member
    exact new (mem_of_get (Std.ExtTreeMap.mem_toList_iff_getElem?_eq_some.mp member))
  · rintro ⟨a,w⟩
    rw [List.mem_cons,Std.ExtTreeMap.mem_toList_iff_getElem?_eq_some,Std.ExtTreeMap.mem_toList_iff_getElem?_eq_some,get_insert]
    by_cases same : k = a
    · subst same
      simp [not_mem_iff.mp new,eq_comm]
    · simp [same,Ne.symm same]

theorem toList_erase [DecidableEq κ] (map : BTreeMap κ ν) (k : κ) :
    (map.erase k).toList.Perm (map.toList.filter fun entry => entry.1 ≠ k) := by
  refine (List.perm_ext_iff_of_nodup (toList_nodup _) ((toList_nodup _).filter _)).mpr ?_
  rintro ⟨a,w⟩
  rw [List.mem_filter,Std.ExtTreeMap.mem_toList_iff_getElem?_eq_some,Std.ExtTreeMap.mem_toList_iff_getElem?_eq_some,get_erase]
  by_cases same : k = a <;> simp [same,eq_comm]
end BTreeMap

/-- A priority queue: what it holds, least first. -/
structure Heap (α : Type u) [LinearOrder α] where
  entries : List α
  ordered : entries.Pairwise (· ≤ ·)

namespace Heap

variable {α : Type u} [LinearOrder α]

instance : Membership α (Heap α) := ⟨fun heap a => a ∈ heap.entries⟩

theorem mem_entries {heap : Heap α} {a : α} : a ∈ heap.entries ↔ a ∈ heap := Iff.rfl

instance (heap : Heap α) (a : α) : Decidable (a ∈ heap) := decidable_of_iff _ mem_entries

def push (heap : Heap α) (a : α) : Heap α where
  entries := heap.entries.orderedInsert (· ≤ ·) a
  ordered := heap.ordered.orderedInsert a _

/-- The least entry and the heap without it. -/
def pop (heap : Heap α) : Option (α × Heap α) :=
  match heap with
  | ⟨[],_⟩ => none
  | ⟨a :: rest,ordered⟩ => some (a,⟨rest,(List.pairwise_cons.mp ordered).2⟩)

/-- The entries that satisfy `p` stay. -/
def retain (heap : Heap α) (p : α → Prop) [DecidablePred p] : Heap α where
  entries := heap.entries.filter p
  ordered := heap.ordered.filter _

/-- The heap collected from a list. -/
def collect (list : List α) : Heap α where
  entries := list.insertionSort (· ≤ ·)
  ordered := List.pairwise_insertionSort _ list

/-- How many entries satisfy `p`. -/
def count (heap : Heap α) (p : α → Prop) [DecidablePred p] : Nat := heap.entries.countP p

section
variable (p : α → Prop) [DecidablePred p]

theorem count_push (heap : Heap α) (a : α) : (heap.push a).count p = heap.count p + if p a then 1 else 0 := by
  unfold count push
  rw [(List.perm_orderedInsert _ a heap.entries).countP_eq,List.countP_cons]
  simp

theorem count_retain (heap : Heap α) (q : α → Prop) [DecidablePred q] :
    (heap.retain q).count p = heap.count fun a => p a ∧ q a := by
  simp [count,retain,List.countP_filter]

theorem count_collect (list : List α) : (collect list).count p = list.countP p :=
  (List.perm_insertionSort _ list).countP_eq _

theorem count_pop {heap rest : Heap α} {a : α} (popped : heap.pop = some (a,rest)) :
    heap.count p = rest.count p + if p a then 1 else 0 := by
  obtain ⟨entries,ordered⟩ := heap
  cases entries with
  | nil => simp [pop] at popped
  | cons b others =>
    simp only [pop,Option.some.injEq,Prod.mk.injEq] at popped
    obtain ⟨rfl,rfl⟩ := popped
    simp [count,List.countP_cons]

theorem count_pos {heap : Heap α} : 0 < heap.count p ↔ ∃ a ∈ heap, p a := by
  simp [count,List.countP_pos_iff,mem_entries]

theorem count_congr {heap : Heap α} {q : α → Prop} [DecidablePred q] (same : ∀ a ∈ heap, p a ↔ q a) :
    heap.count p = heap.count q :=
  List.countP_congr fun a member => by simpa using same a member
end

theorem mem_pop {heap rest : Heap α} {a b : α} (popped : heap.pop = some (a,rest)) : b ∈ heap ↔ b = a ∨ b ∈ rest := by
  obtain ⟨entries,ordered⟩ := heap
  cases entries with
  | nil => simp [pop] at popped
  | cons c others =>
    simp only [pop,Option.some.injEq,Prod.mk.injEq] at popped
    obtain ⟨rfl,rfl⟩ := popped
    simp [← mem_entries]

/-- What comes out first is least. -/
theorem le_of_pop {heap rest : Heap α} {a b : α} (popped : heap.pop = some (a,rest)) (member : b ∈ rest) : a ≤ b := by
  obtain ⟨entries,ordered⟩ := heap
  cases entries with
  | nil => simp [pop] at popped
  | cons c others =>
    simp only [pop,Option.some.injEq,Prod.mk.injEq] at popped
    obtain ⟨rfl,rfl⟩ := popped
    exact (List.pairwise_cons.mp ordered).1 b member
end Heap

end Proofstorm
