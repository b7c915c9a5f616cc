import Proofstorm.Core.Reading
import Mathlib.Data.List.TakeWhile
import Mathlib.Data.List.Sort

/-!
What `serde_json::from_value` makes of a document. A struct is read from an object,
by the names of its fields, or from an array, by their places; a field that is
absent has its default or is an error.
-/
namespace Proofstorm.Core

section
variable {α : Type}

namespace Json

/-- A number without a sign, as it is written. -/
def nat (n : Nat) : Json := .num (toString n)

/-- A field of a struct. -/
def part (value : Json) (names : List String) (name : String) : Option Json :=
  match value with
  | .obj fields => Json.get (.obj fields) name
  | .arr items => items.toList[names.idxOf name]?
  | _ => none

/-- `deny_unknown_fields`. -/
def closed (names : List String) : Json → Bool
  | .obj fields => fields.toList.all fun field => names.contains field.1
  | .arr items => items.toList.length ≤ names.length
  | _ => false

def required (read : Json → Option α) (part : Option Json) : Option α := part.bind read

/-- `#[serde(default)]`. -/
def defaulted (read : Json → Option α) (default : α) : Option Json → Option α
  | none => some default
  | some value => read value

/-- `Option<T>`. -/
def optional (read : Json → Option α) : Json → Option (Option α)
  | .null => some none
  | value => (read value).map some

/-- `Vec<T>`. -/
def list (read : Json → Option α) : Json → Option (List α)
  | .arr items => items.toList.mapM read
  | _ => none

def asU32 (value : Json) : Option Nat := value.asU64.filter (· < 2 ^ 32)

/-- `BTreeMap<String, String>`, by its keys. -/
def asEnv : Json → Option (List (String × String))
  | .obj fields =>
    (fields.toList.mapM fun field : String × Json => field.2.asStr.map fun text => (field.1,text)).map
      (List.insertionSort fun one other => one.1 ≤ other.1)
  | _ => none

/-! ### Numbers -/

theorem toDigits_head : ∀ n : Nat, 0 < n → (Nat.toDigits 10 n).head? ≠ some '0' := by
  intro n
  induction n using Nat.strongRecOn with
  | _ n ih =>
    intro pos
    rcases Nat.lt_or_ge n 10 with small | large
    · rw [Nat.toDigits_of_lt_base small]
      have digits : ∀ d < 10, 0 < d → [Nat.digitChar d].head? ≠ some '0' := by decide
      exact digits n small pos
    · have more := ih (n / 10) (Nat.div_lt_self pos (by decide)) (Nat.div_pos large (by decide))
      rw [Nat.toDigits_of_base_le (by decide) large,List.head?_append]
      cases first : (Nat.toDigits 10 (n / 10)).head? with
      | none => exact absurd (List.head?_eq_none_iff.mp first) Nat.toDigits_ne_nil
      | some c => simpa [first] using more

theorem takeWhile_all {p : Char → Bool} {text : List Char} (all : ∀ c ∈ text, p c = true) :
    text.takeWhile p = text ∧ text.dropWhile p = [] :=
  ⟨List.takeWhile_eq_self_iff.mpr all,List.dropWhile_eq_nil_iff.mpr all⟩

theorem toDigits_digits (n : Nat) : ∀ c ∈ Nat.toDigits 10 n, c.isDigit = true :=
  fun _ member => Nat.isDigit_of_mem_toDigits (by decide) (by decide) member

theorem isUnsigned_toDigits (n : Nat) : isUnsigned (Nat.toDigits 10 n) = true := by
  have digits := toDigits_digits n
  obtain ⟨taken,left⟩ := takeWhile_all digits
  have some_ : isDigits (Nat.toDigits 10 n) = true := by
    simp only [isDigits,Bool.and_eq_true,decide_eq_true_eq,List.all_eq_true]
    exact ⟨Nat.toDigits_ne_nil,digits⟩
  have first : (Nat.toDigits 10 n = ['0'] ∨ (Nat.toDigits 10 n).head? ≠ some '0') := by
    rcases Nat.eq_zero_or_pos n with rfl | pos
    · exact .inl rfl
    · exact .inr (toDigits_head n pos)
  simp only [isUnsigned,taken,left,some_,Bool.true_and,Bool.and_eq_true,Bool.or_eq_true,decide_eq_true_eq]
  exact ⟨first,rfl⟩

theorem nat_proper (n : Nat) : (nat n).Proper := by
  show isNumber (toString n).toList = true
  rw [Nat.toString_eq_repr,Nat.toList_repr]
  unfold isNumber
  split
  · rename_i rest same
    have minus := toDigits_digits n '-' (same ▸ List.mem_cons_self)
    cases minus
  · exact isUnsigned_toDigits n

theorem digits_toDigits (n : Nat) : Json.digits (Nat.toDigits 10 n) = some n := by
  rw [Json.digits,if_pos ⟨Nat.toDigits_ne_nil,List.all_eq_true.mpr (toDigits_digits n)⟩,Nat.ofDigitChars_ten_toDigits]

theorem asU64_nat {n : Nat} (fits : n < 2 ^ 64) : (nat n).asU64 = some n := by
  rw [nat,asU64,Nat.toString_eq_repr,Nat.toList_repr,digits_toDigits,Option.filter_some]
  exact if_pos (by simpa using fits)

theorem asU32_nat {n : Nat} (fits : n < 2 ^ 32) : (nat n).asU32 = some n := by
  rw [asU32,asU64_nat (by omega),Option.filter_some]
  exact if_pos (by simpa using fits)

/-! ### Objects and arrays -/

@[simp] theorem required_some (read : Json → Option α) (value : Json) : required read (some value) = read value := rfl

@[simp] theorem defaulted_some (read : Json → Option α) (default : α) (value : Json) :
    defaulted read default (some value) = read value := rfl

@[simp] theorem asStr_str (text : String) : asStr (.str text) = some text := rfl

@[simp] theorem asBool_bool (value : Bool) : asBool (.bool value) = some value := rfl

@[simp] theorem object_full (pairs : List (String × Json)) : object pairs ≠ .null := by simp [object]

@[simp] theorem part_object (pairs : List (String × Json)) (names : List String) (name : String) :
    (object pairs).part names name = (pairs.find? fun field => field.1 == name).map Prod.snd := by
  rw [object,part,get,Fields.toList_ofList]

@[simp] theorem closed_object (pairs : List (String × Json)) (names : List String) :
    (object pairs).closed names = pairs.all fun field => names.contains field.1 := by
  rw [object,closed,Fields.toList_ofList]

@[simp] theorem list_array (read : Json → Option α) (items : List Json) : (array items).list read = items.mapM read := by
  rw [array,list,Items.toList_ofList]

theorem mapM_some {β : Type} {f : β → Option α} {g : α → β} {list : List α} (each : ∀ a ∈ list, f (g a) = some a) :
    (list.map g).mapM f = some list := by
  induction list with
  | nil => rfl
  | cons a rest ih =>
    obtain ⟨first,others⟩ := List.forall_mem_cons.mp each
    simp [first,ih others]

theorem list_texts (texts : List String) : (array (texts.map .str)).list asStr = some texts := by
  rw [list_array]
  exact mapM_some fun _ _ => rfl

theorem array_proper {items : List Json} (each : ∀ item ∈ items, item.Proper) : (array items).Proper := by
  induction items with
  | nil => trivial
  | cons head tail ih =>
    obtain ⟨first,others⟩ := List.forall_mem_cons.mp each
    exact ⟨first,ih others⟩

theorem object_proper {pairs : List (String × Json)} (names : (pairs.map Prod.fst).Nodup) (each : ∀ pair ∈ pairs, pair.2.Proper) :
    (object pairs).Proper := by
  induction pairs with
  | nil => trivial
  | cons pair rest ih =>
    obtain ⟨first,others⟩ := List.forall_mem_cons.mp each
    obtain ⟨new,names⟩ := List.nodup_cons.mp names
    refine ⟨?_,first,ih names others⟩
    rw [Fields.containsKey,Fields.toList_ofList,List.any_eq_false]
    intro other member same
    exact new (List.mem_map.mpr ⟨other,member,by simpa using same⟩)

theorem str_proper (text : String) : (Json.str text).Proper := trivial

theorem texts_proper (texts : List String) : (array (texts.map .str)).Proper := by
  refine array_proper fun item member => ?_
  obtain ⟨_,_,rfl⟩ := List.mem_map.mp member
  trivial

end Json

end

end Proofstorm.Core
