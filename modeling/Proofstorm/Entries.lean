import Mathlib.Data.List.Sort
import Mathlib.Order.Defs.LinearOrder

/-!
The entries of an ordered map, as a list in strictly increasing order of the keys.
A map so written is known by its lookups (`Sorted.ext`); `orInsert` adds an entry
where the key is free, and `defaults` adds many. A list that is sorted by a key
that no two of its members share is the same for every order of those members
(`insertionSort_eq`).
-/
namespace Proofstorm.Entries
set_option linter.unusedSectionVars false
universe u v
variable {κ : Type u} {ν : Type v} [LinearOrder κ] [BEq κ] [LawfulBEq κ]

/-- The entries of a map, in the order of their keys. -/
def Sorted (entries : List (κ × ν)) : Prop := entries.Pairwise fun a b => a.1 < b.1

/-- `map.entry(key).or_insert(value)`. -/
def orInsert (key : κ) (value : ν) : List (κ × ν) → List (κ × ν)
  | [] => [(key,value)]
  | entry :: rest =>
    if key = entry.1 then entry :: rest
    else if key < entry.1 then (key,value) :: entry :: rest
    else entry :: orInsert key value rest

theorem lookup_cons (entry : κ × ν) (rest : List (κ × ν)) (k : κ) :
    (entry :: rest).lookup k = if k = entry.1 then some entry.2 else rest.lookup k := by
  obtain ⟨key,value⟩ := entry
  by_cases here : k = key
  · simp [here]
  · have apart : (k == key) = false := by simpa using here
    simp [List.lookup_cons,here,apart]

variable {entries : List (κ × ν)}

theorem lookup_eq_none_of_lt {key : κ} (after : ∀ entry ∈ entries, key < entry.1) :
    entries.lookup key = none := by
  rw [List.lookup_eq_none_iff]
  intro entry member
  have differ := (after entry member).ne
  simpa using differ

variable {key : κ} {value : ν} {entry : κ × ν} {rest a b : List (κ × ν)}

theorem mem_of_lookup (found : entries.lookup key = some value) :
    (key,value) ∈ entries := by
  induction entries with
  | nil => cases found
  | cons head rest ih =>
    rw [lookup_cons] at found
    split_ifs at found with here
    · cases found
      rw [here]
      exact List.mem_cons_self
    · exact List.mem_cons_of_mem _ (ih found)

theorem Sorted.tail (sorted : Sorted (entry :: rest)) : Sorted rest :=
  (List.pairwise_cons.mp sorted).2

theorem Sorted.head (sorted : Sorted (entry :: rest)) :
    ∀ other ∈ rest, entry.1 < other.1 :=
  (List.pairwise_cons.mp sorted).1

theorem mem_orInsert (member : entry ∈ orInsert key value entries) : entry = (key,value) ∨ entry ∈ entries := by
  induction entries with
  | nil => exact .inl (List.mem_singleton.mp member)
  | cons head rest ih =>
    unfold orInsert at member
    split_ifs at member
    · exact .inr member
    · exact List.mem_cons.mp member
    · obtain rfl | later := List.mem_cons.mp member
      · exact .inr List.mem_cons_self
      · exact (ih later).imp_right (List.mem_cons_of_mem _)

theorem Sorted.orInsert (sorted : Sorted entries) (key : κ) (value : ν) :
    Sorted (orInsert key value entries) := by
  induction entries with
  | nil => exact List.pairwise_singleton _ _
  | cons head rest ih =>
    unfold Entries.orInsert
    split_ifs with same less
    · exact sorted
    · refine List.pairwise_cons.mpr ⟨fun other member => ?_,sorted⟩
      obtain rfl | later := List.mem_cons.mp member
      · exact less
      · exact less.trans (sorted.head other later)
    · refine List.pairwise_cons.mpr ⟨fun other member => ?_,ih sorted.tail⟩
      obtain rfl | later := mem_orInsert member
      · exact lt_of_le_of_ne (not_lt.mp less) (Ne.symm same)
      · exact sorted.head other later

theorem lookup_orInsert (sorted : Sorted entries) (key : κ) (value : ν) (k : κ) :
    (orInsert key value entries).lookup k = (entries.lookup k).or (if k = key then some value else none) := by
  induction entries with
  | nil => simp [orInsert,lookup_cons]
  | cons head rest ih =>
    unfold orInsert
    by_cases taken : key = head.1
    · rw [if_pos taken,lookup_cons]
      by_cases here : k = head.1
      · simp [here]
      · have other : k ≠ key := fun same => here (same.trans taken)
        simp [here,other]
    · rw [if_neg taken]
      by_cases less : key < head.1
      · rw [if_pos less,lookup_cons]
        by_cases same : k = key
        · subst same
          have absent : (head :: rest).lookup k = none := by
            refine lookup_eq_none_of_lt fun entry member => ?_
            obtain rfl | later := List.mem_cons.mp member
            · exact less
            · exact less.trans (sorted.head entry later)
          simp [absent]
        · simp [same]
      · rw [if_neg less,lookup_cons,lookup_cons,ih sorted.tail]
        by_cases here : k = head.1
        · simp [here]
        · simp [here]

/-- A map is known by its lookups. -/
theorem Sorted.ext (left : Sorted a) (right : Sorted b)
    (same : ∀ k, a.lookup k = b.lookup k) : a = b := by
  induction a generalizing b with
  | nil =>
    cases b with
    | nil => rfl
    | cons head rest =>
      have here := same head.1
      simp [lookup_cons] at here
  | cons x xs ih =>
    cases b with
    | nil =>
      have here := same x.1
      simp [lookup_cons] at here
    | cons y ys =>
      have keys : x.1 = y.1 := by
        rcases lt_trichotomy x.1 y.1 with less | equal | more
        · have here := same x.1
          rw [@lookup_eq_none_of_lt _ _ _ _ _ (y :: ys)] at here
          · simp [lookup_cons] at here
          · intro entry member
            obtain rfl | later := List.mem_cons.mp member
            · exact less
            · exact less.trans (right.head entry later)
        · exact equal
        · have here := same y.1
          rw [@lookup_eq_none_of_lt _ _ _ _ _ (x :: xs)] at here
          · simp [lookup_cons] at here
          · intro entry member
            obtain rfl | later := List.mem_cons.mp member
            · exact more
            · exact more.trans (left.head entry later)
      have values : x.2 = y.2 := by
        have here := same x.1
        simpa [lookup_cons,keys] using here
      have heads : x = y := Prod.ext keys values
      subst heads
      congr 1
      refine ih left.tail right.tail fun k => ?_
      by_cases here : k = x.1
      · subst here
        rw [lookup_eq_none_of_lt left.head,lookup_eq_none_of_lt right.head]
      · simpa [lookup_cons,here] using same k

/-- Where no key comes twice, the order of the entries does not matter. -/
theorem lookup_perm (perm : a.Perm b) (distinct : (a.map Prod.fst).Nodup) (key : κ) :
    a.lookup key = b.lookup key := by
  induction perm with
  | nil => rfl
  | cons entry _ ih =>
    rw [lookup_cons,lookup_cons,ih (List.nodup_cons.mp distinct).2]
  | swap x y rest =>
    rw [lookup_cons,lookup_cons,lookup_cons,lookup_cons]
    have apart : y.1 ≠ x.1 := by
      intro same
      exact (List.nodup_cons.mp distinct).1 (same ▸ List.mem_cons_self)
    split_ifs with first second
    · exact absurd (first.symm.trans second) apart
    · rfl
    · rfl
    · rfl
  | trans one _ ih ih' => rw [ih distinct,ih' ((one.map _).nodup_iff.mp distinct)]

theorem lookup_of_mem (member : (key,value) ∈ entries)
    (distinct : (entries.map Prod.fst).Nodup) : entries.lookup key = some value := by
  induction entries with
  | nil => exact absurd member List.not_mem_nil
  | cons head rest ih =>
    obtain ⟨fresh,rest_distinct⟩ := List.nodup_cons.mp distinct
    rw [lookup_cons]
    obtain rfl | later := List.mem_cons.mp member
    · rw [if_pos rfl]
    · have other : key ≠ head.1 := fun same => fresh (List.mem_map.mpr ⟨_,later,same⟩)
      rw [if_neg other,ih later rest_distinct]

/-! ### Defaults -/

/-- The entries of a map with those of a list of defaults whose keys are free. -/
def defaults (entries : List (κ × ν)) (list : List (κ × ν)) : List (κ × ν) :=
  list.foldl (fun entries entry => orInsert entry.1 entry.2 entries) entries

theorem Sorted.defaults (sorted : Sorted entries) (list : List (κ × ν)) :
    Sorted (defaults entries list) := by
  induction list generalizing entries with
  | nil => exact sorted
  | cons head rest ih => exact ih (sorted.orInsert head.1 head.2)

theorem lookup_defaults (sorted : Sorted entries) (list : List (κ × ν)) (k : κ) :
    (defaults entries list).lookup k = (entries.lookup k).or (list.lookup k) := by
  induction list generalizing entries with
  | nil => simp [defaults]
  | cons head rest ih =>
    have step := ih (sorted.orInsert head.1 head.2)
    rw [lookup_orInsert sorted] at step
    have unfolded : Entries.defaults entries (head :: rest) =
        Entries.defaults (Entries.orInsert head.1 head.2 entries) rest := rfl
    rw [unfolded,step,Option.or_assoc]
    congr 1
    by_cases here : k = head.1 <;> simp [lookup_cons,here]

/-- Where a map has the defaults, they add nothing to it. -/
theorem defaults_defaults (sorted : Sorted entries) (list : List (κ × ν)) :
    defaults (defaults entries list) list = defaults entries list := by
  refine Sorted.ext ((sorted.defaults list).defaults list) (sorted.defaults list) fun k => ?_
  rw [lookup_defaults (sorted.defaults list),lookup_defaults sorted,Option.or_assoc,Option.or_self]

/-! ### Sorting by a key -/

/-- What is sorted by a key that tells the members apart has one order. -/
theorem insertionSort_eq {α : Type u} {β : Type v} [LinearOrder β] {f : α → β} {a b : List α} (perm : a.Perm b)
    (apart : ∀ x ∈ a, ∀ y ∈ a, f x = f y → x = y) :
    a.insertionSort (fun x y => f x ≤ f y) = b.insertionSort fun x y => f x ≤ f y := by
  have total : Std.Total fun x y => f x ≤ f y := ⟨fun x y => le_total (f x) (f y)⟩
  have transitive : IsTrans α fun x y => f x ≤ f y := ⟨fun _ _ _ => le_trans⟩
  have left := List.perm_insertionSort (fun x y => f x ≤ f y) a
  have right := List.perm_insertionSort (fun x y => f x ≤ f y) b
  refine @List.Perm.eq_of_pairwise _ (fun x y => f x ≤ f y) _ _ ?_ (List.pairwise_insertionSort _ a)
    (List.pairwise_insertionSort _ b) (left.trans (perm.trans right.symm))
  intro x y inA inB forward back
  exact apart x (left.mem_iff.mp inA) y (perm.mem_iff.mpr (right.mem_iff.mp inB)) (le_antisymm forward back)

end Proofstorm.Entries
