import Mathlib.Algebra.Order.Ring.Int
import Mathlib.Data.List.Nodup
import Mathlib.Data.List.Dedup

/-!
Tables with a primary key. A table keeps its rows in the order of insertion and
carries the fact that no two of them share a key, so a lookup by key has at most
one answer (`find_eq_some`) and a row is known by its key (`eq_of_key`). The
operations are those of an SQL table: `insert` does nothing where the key is
taken, `update` rewrites the chosen rows and keeps their keys, `upsert` is an
insert that rewrites the row it conflicts with, and `delete` drops the chosen
rows. Each has one lemma that says which rows the table then has.
-/
namespace Proofstorm
universe u v

/-- The primary key of a row. -/
class Keyed (ρ : Type u) (κ : outParam (Type v)) where
  key : ρ → κ

export Keyed (key)

/-- Rows in the order of insertion, at most one for each key. -/
@[ext] structure Table (ρ : Type u) {κ : Type v} [Keyed ρ κ] where
  rows : List ρ
  unique : (rows.map key).Nodup

namespace Table

section
variable {ρ : Type u} {κ : Type v} [Keyed ρ κ]

instance : Membership ρ (Table ρ) := ⟨fun table row => row ∈ table.rows⟩

instance [DecidableEq ρ] : DecidableEq (Table ρ) := fun a b =>
  decidable_of_iff (a.rows = b.rows) ⟨Table.ext, fun same => same ▸ rfl⟩

variable {table : Table ρ} {p : ρ → Prop}

theorem mem_rows {row : ρ} : row ∈ table.rows ↔ row ∈ table := Iff.rfl

/-- Two rows of a table with one key are one row. -/
theorem eq_of_key {a b : ρ} (left : a ∈ table) (right : b ∈ table) (same : key a = key b) :
    a = b :=
  List.inj_on_of_nodup_map table.unique left right same

def empty : Table ρ := ⟨[],List.nodup_nil⟩

@[simp] theorem not_mem_empty (row : ρ) : row ∉ (empty : Table ρ) := by
  simp [empty,← mem_rows]

/-- The rows that satisfy `p` are dropped. -/
def delete (table : Table ρ) (p : ρ → Prop) [DecidablePred p] : Table ρ where
  rows := table.rows.filter (fun row => ¬ p row)
  unique := table.unique.sublist (List.filter_sublist.map key)

@[simp] theorem mem_delete [DecidablePred p] {row : ρ} :
    row ∈ table.delete p ↔ row ∈ table ∧ ¬ p row := by
  simp [delete,← mem_rows]

/-- The rows that satisfy `p` are rewritten by `f`, which keeps their keys. -/
def update (table : Table ρ) (p : ρ → Prop) [DecidablePred p] (f : ρ → ρ) (keeps : ∀ row, key (f row) = key row) :
    Table ρ where
  rows := table.rows.map (fun row => if p row then f row else row)
  unique := by
    have same : (fun row => key (if p row then f row else row)) = (key : ρ → κ) := by
      funext row
      split
      · exact keeps row
      · rfl
    simpa [List.map_map,Function.comp_def,same] using table.unique

theorem mem_update [DecidablePred p] {f : ρ → ρ}
    (keeps : ∀ row, key (f row) = key row) {row : ρ} :
    row ∈ table.update p f keeps ↔ (row ∈ table ∧ ¬ p row) ∨ ∃ old ∈ table, p old ∧ row = f old := by
  simp only [update,← mem_rows,List.mem_map]
  constructor
  · rintro ⟨old,member,same⟩
    by_cases chosen : p old
    · exact .inr ⟨old,member,chosen,by simpa [chosen] using same.symm⟩
    · have kept : old = row := by simpa [chosen] using same
      exact .inl (kept ▸ ⟨member,chosen⟩)
  · rintro (⟨member,other⟩ | ⟨old,member,chosen,rfl⟩)
    · exact ⟨row,member,by simp [other]⟩
    · exact ⟨old,member,by simp [chosen]⟩

theorem delete_update (table : Table ρ) (p q : ρ → Prop) [DecidablePred p] [DecidablePred q] (f : ρ → ρ)
    (keeps : ∀ row, key (f row) = key row) (covered : ∀ row, p row → q row ∧ q (f row)) :
    (table.update p f keeps).delete q = table.delete q := by
  have rows : ∀ list : List ρ, (list.map fun row => if p row then f row else row).filter (fun row => ¬ q row) =
      list.filter fun row => ¬ q row := by
    intro list
    induction list with
    | nil => rfl
    | cons row rest ih =>
      rw [List.map_cons,List.filter_cons,List.filter_cons,ih]
      by_cases chosen : p row
      · simp [chosen,covered row chosen]
      · rw [if_neg chosen]
  exact Table.ext (rows table.rows)
end

section
variable {ρ : Type u} {κ : Type v} [Keyed ρ κ] [DecidableEq κ]

/-- The row under a key. -/
def find (table : Table ρ) (k : κ) : Option ρ := table.rows.find? (fun row => key row = k)

/-- Whether a row has the key. -/
def has (table : Table ρ) (k : κ) : Prop := ∃ row ∈ table, key row = k

variable {table : Table ρ}

variable {k : κ} {other : ρ}

theorem find_eq_some {row : ρ} : table.find k = some row ↔ row ∈ table ∧ key row = k := by
  constructor
  · intro found
    exact ⟨List.mem_of_find?_eq_some found,by simpa using List.find?_some found⟩
  · rintro ⟨member,rfl⟩
    cases found : table.find (key row) with
    | none => simpa using List.find?_eq_none.mp found row member
    | some other =>
      have same : key other = key row := by simpa using List.find?_some found
      rw [eq_of_key (List.mem_of_find?_eq_some found) member same]

theorem find_eq_none : table.find k = none ↔ ∀ row ∈ table, key row ≠ k := by
  simp [find,← mem_rows]

theorem find_of_mem {row : ρ} (member : row ∈ table) : table.find (key row) = some row :=
  find_eq_some.mpr ⟨member,rfl⟩

theorem find_isSome : (table.find k).isSome ↔ table.has k := by
  simp [Option.isSome_iff_exists,find_eq_some,has]

theorem has_of_find {row : ρ} (found : table.find k = some row) : table.has k :=
  find_isSome.mp (by rw [found]; rfl)

instance (table : Table ρ) (k : κ) : Decidable (table.has k) := decidable_of_iff _ find_isSome

theorem not_has : ¬ table.has k ↔ table.find k = none := by
  simp [has,find_eq_none]

/-- The row comes last, unless its key is taken. -/
def insert (table : Table ρ) (row : ρ) : Table ρ :=
  if free : table.find (key row) = none then
    { rows := table.rows ++ [row]
      unique := by
        have fresh := find_eq_none.mp free
        simp only [List.map_append,List.map_cons,List.map_nil]
        refine List.nodup_append.mpr ⟨table.unique,by simp,?_⟩
        simp only [List.mem_map,List.mem_singleton]
        rintro _ ⟨old,member,rfl⟩ _ rfl
        exact fresh old member }
  else table

theorem insert_of_free {row : ρ} (free : table.find (key row) = none) :
    (table.insert row).rows = table.rows ++ [row] := by
  simp [insert,free]

theorem insert_of_taken {row : ρ} (taken : table.has (key row)) : table.insert row = table := by
  have found := find_isSome.mpr taken
  simp [insert,Option.isSome_iff_ne_none.mp found]

theorem mem_insert {row : ρ} :
    other ∈ table.insert row ↔ other ∈ table ∨ (other = row ∧ table.find (key row) = none) := by
  by_cases free : table.find (key row) = none
  · simp [← mem_rows,insert_of_free free,free]
  · simp [insert,free]

theorem mem_insert_of_mem {row : ρ} (member : other ∈ table) : other ∈ table.insert row :=
  mem_insert.mpr (.inl member)

theorem has_insert (table : Table ρ) (row : ρ) : (table.insert row).has (key row) := by
  by_cases free : table.find (key row) = none
  · exact ⟨row,mem_insert.mpr (.inr ⟨rfl,free⟩),rfl⟩
  · obtain ⟨old,member,same⟩ := find_isSome.mp (Option.isSome_iff_ne_none.mpr free)
    exact ⟨old,mem_insert_of_mem member,same⟩

/-- The row is inserted, or the row with its key is rewritten by `f`. -/
def upsert (table : Table ρ) (row : ρ) (f : ρ → ρ) (keeps : ∀ row, key (f row) = key row) : Table ρ :=
  if table.has (key row) then table.update (fun old => key old = key row) f keeps else table.insert row

theorem mem_upsert {row : ρ} {f : ρ → ρ} (keeps : ∀ row, key (f row) = key row) :
    other ∈ table.upsert row f keeps ↔
      (other ∈ table ∧ key other ≠ key row) ∨ (∃ old ∈ table, key old = key row ∧ other = f old) ∨
        (other = row ∧ table.find (key row) = none) := by
  by_cases taken : table.has (key row)
  · have found : table.find (key row) ≠ none := fun free => not_has.mpr free taken
    simp [upsert,taken,mem_update,found]
  · have fresh := find_eq_none.mp (not_has.mp taken)
    simp only [upsert,taken,if_false,mem_insert]
    constructor
    · rintro (member | new)
      · exact .inl ⟨member,fresh other member⟩
      · exact .inr (.inr new)
    · rintro (⟨member,_⟩ | ⟨old,member,same,_⟩ | new)
      · exact .inl member
      · exact absurd same (fresh old member)
      · exact .inr new

/-- Every row of the list is inserted, in order. -/
def insertAll (table : Table ρ) : List ρ → Table ρ
  | [] => table
  | row :: rest => (table.insert row).insertAll rest

theorem mem_insertAll_of_mem {row : ρ} (member : row ∈ table) (list : List ρ) :
    row ∈ table.insertAll list := by
  induction list generalizing table with
  | nil => exact member
  | cons next rest ih => exact ih (mem_insert_of_mem member)

theorem mem_of_mem_insertAll {row : ρ} {list : List ρ} (member : row ∈ table.insertAll list) :
    row ∈ table ∨ row ∈ list := by
  induction list generalizing table with
  | nil => exact .inl member
  | cons next rest ih =>
    rcases ih member with before | later
    · rcases mem_insert.mp before with old | ⟨rfl,_⟩
      · exact .inl old
      · exact .inr List.mem_cons_self
    · exact .inr (List.mem_cons_of_mem _ later)

theorem has_insertAll {row : ρ} {list : List ρ} (member : row ∈ list) :
    (table.insertAll list).has (key row) := by
  induction list generalizing table with
  | nil => simp at member
  | cons next rest ih =>
    rcases List.mem_cons.mp member with rfl | later
    · obtain ⟨old,present,same⟩ := has_insert table row
      exact ⟨old,mem_insertAll_of_mem present rest,same⟩
    · exact ih later

/-! ### What a lookup finds after a write -/

theorem find_insert (table : Table ρ) (row : ρ) (k : κ) :
    (table.insert row).find k = (table.find k).or (if key row = k then some row else none) := by
  cases found : table.find k with
  | some old =>
    obtain ⟨member,same⟩ := find_eq_some.mp found
    exact find_eq_some.mpr ⟨mem_insert_of_mem member,same⟩
  | none =>
    by_cases same : key row = k
    · subst same
      simpa using find_of_mem (mem_insert.mpr (.inr ⟨rfl,found⟩))
    · rw [Option.none_or,if_neg same,find_eq_none]
      intro other member
      rcases mem_insert.mp member with old | ⟨rfl,_⟩
      · exact find_eq_none.mp found other old
      · exact same

theorem find_delete (table : Table ρ) (p : ρ → Prop) [DecidablePred p] (k : κ) :
    (table.delete p).find k = (table.find k).filter fun row => ¬ p row := by
  cases found : table.find k with
  | none => exact find_eq_none.mpr fun row member => find_eq_none.mp found row (mem_delete.mp member).1
  | some old =>
    obtain ⟨member,same⟩ := find_eq_some.mp found
    by_cases dropped : p old
    · rw [Option.filter_some,if_neg (by simpa using dropped),find_eq_none]
      intro other present alike
      obtain ⟨there,kept⟩ := mem_delete.mp present
      exact kept (eq_of_key there member (alike.trans same.symm) ▸ dropped)
    · rw [Option.filter_some,if_pos (by simpa using dropped)]
      exact find_eq_some.mpr ⟨mem_delete.mpr ⟨member,dropped⟩,same⟩

theorem find_update (table : Table ρ) (p : ρ → Prop) [DecidablePred p] (f : ρ → ρ) (keeps : ∀ row, key (f row) = key row)
    (k : κ) : (table.update p f keeps).find k = (table.find k).map fun row => if p row then f row else row := by
  cases found : table.find k with
  | none =>
    refine find_eq_none.mpr fun row member => ?_
    rcases (mem_update keeps).mp member with ⟨old,_⟩ | ⟨old,there,_,rfl⟩
    · exact find_eq_none.mp found row old
    · exact keeps old ▸ find_eq_none.mp found old there
  | some old =>
    obtain ⟨member,same⟩ := find_eq_some.mp found
    rw [Option.map_some]
    by_cases chosen : p old
    · rw [if_pos chosen]
      exact find_eq_some.mpr ⟨(mem_update keeps).mpr (.inr ⟨old,member,chosen,rfl⟩),(keeps old).trans same⟩
    · rw [if_neg chosen]
      exact find_eq_some.mpr ⟨(mem_update keeps).mpr (.inl ⟨member,chosen⟩),same⟩

theorem find_update_some {p : ρ → Prop} [DecidablePred p] {f : ρ → ρ}
    (keeps : ∀ row, key (f row) = key row) {k : κ} {row : ρ} (found : table.find k = some row) :
    (table.update p f keeps).find k = some (if p row then f row else row) := by
  rw [find_update,found,Option.map_some]

theorem find_upsert (table : Table ρ) (row : ρ) (f : ρ → ρ) (keeps : ∀ row, key (f row) = key row) (k : κ) :
    (table.upsert row f keeps).find k = if key row = k then some (((table.find k).map f).getD row) else table.find k := by
  rw [upsert]
  split
  · rename_i taken
    rw [find_update]
    by_cases same : key row = k
    · obtain ⟨old,found⟩ := Option.isSome_iff_exists.mp (find_isSome.mpr taken)
      subst same
      simp [found,(find_eq_some.mp found).2]
    · rw [if_neg same]
      cases found : table.find k with
      | none => rfl
      | some old =>
        have other : key old ≠ key row := fun alike => same (alike.symm.trans (find_eq_some.mp found).2)
        simp [other]
  · rename_i free
    rw [find_insert]
    by_cases same : key row = k
    · subst same
      simp [not_has.mp free]
    · simp [same]

theorem find_delete_key (table : Table ρ) (k j : κ) :
    (table.delete fun row => key row = k).find j = if j = k then none else table.find j := by
  rw [find_delete]
  cases found : table.find j with
  | none => simp
  | some row =>
    have same : key row = j := (find_eq_some.mp found).2
    by_cases alike : j = k <;> simp [same,alike]

theorem find_update_key (table : Table ρ) (f : ρ → ρ) (keeps : ∀ row, key (f row) = key row) (k j : κ) :
    (table.update (fun row => key row = k) f keeps).find j = if j = k then (table.find j).map f else table.find j := by
  rw [find_update]
  cases found : table.find j with
  | none => simp
  | some row =>
    have same : key row = j := (find_eq_some.mp found).2
    by_cases alike : j = k <;> simp [same,alike]

/-! ### Weights of the rows -/

theorem delete_insert (table : Table ρ) (row : ρ) (q : ρ → Prop) [DecidablePred q] (dropped : q row) :
    (table.insert row).delete q = table.delete q := by
  by_cases free : table.find (key row) = none
  · apply Table.ext
    simp [delete,insert_of_free free,List.filter_append,dropped]
  · rw [insert_of_taken (find_isSome.mp (Option.isSome_iff_ne_none.mpr free))]

/-- The weight of all rows is that of the row under a key and that of the others. -/
theorem sum_rows (table : Table ρ) (weight : ρ → Nat) (k : κ) :
    (table.rows.map weight).sum =
      ((table.delete fun row => key row = k).rows.map weight).sum + ((table.find k).map weight).getD 0 := by
  obtain ⟨rows,unique⟩ := table
  change (rows.map weight).sum = ((rows.filter fun row => ¬ key row = k).map weight).sum +
    ((rows.find? fun row => key row = k).map weight).getD 0
  induction rows with
  | nil => rfl
  | cons row rest ih =>
    obtain ⟨fresh,distinct⟩ := List.nodup_cons.mp unique
    by_cases same : key row = k
    · have others : (rest.filter fun row => ¬ key row = k) = rest := by
        refine List.filter_eq_self.mpr fun other member => ?_
        have differs : key other ≠ k := fun alike => fresh (same ▸ alike ▸ List.mem_map_of_mem member)
        simpa using differs
      rw [List.find?_cons_of_pos (by simpa using same),List.filter_cons_of_neg (by simpa using same),others]
      simp [Nat.add_comm]
    · rw [List.find?_cons_of_neg (by simpa using same),List.filter_cons_of_pos (by simpa using same)]
      simp [ih distinct,Nat.add_assoc]

theorem length_rows (table : Table ρ) (k : κ) :
    table.rows.length = (table.delete fun row => key row = k).rows.length + if table.has k then 1 else 0 := by
  have count : ∀ list : List ρ, (list.map fun _ => 1).sum = list.length := by simp
  rw [← count,table.sum_rows (fun _ => 1) k,count]
  by_cases present : table.has k
  · obtain ⟨row,found⟩ := Option.isSome_iff_exists.mp (find_isSome.mpr present)
    simp [found,present]
  · simp [not_has.mp present,present]
end

end Table

end Proofstorm
