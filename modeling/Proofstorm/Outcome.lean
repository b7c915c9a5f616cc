import Mathlib.Algebra.Order.Ring.Int
import Mathlib.Data.List.Forall2

/-!
Outcomes of code that can fail. `ensure` and `require` are the two guards of such
code; the lemmas read a success backwards, from the end of a block to the guards
it passed.
-/
namespace Proofstorm
universe u v
section
variable {ε : Type u} {α β : Type v}

/-- `Err(error)` unless the condition holds. -/
def ensure (condition : Prop) [Decidable condition] (error : ε) : Except ε PUnit :=
  if condition then .ok ⟨⟩ else .error error

/-- `ok_or(error)`. -/
def require (value : Option α) (error : ε) : Except ε α :=
  match value with
  | some a => .ok a
  | none => .error error

variable {x : Except ε α} {a : α} {condition : Prop}

@[simp] theorem bind_ok {f : α → Except ε β} {b : β} :
    (x >>= f) = .ok b ↔ ∃ a, x = .ok a ∧ f a = .ok b := by
  cases x with
  | ok a => exact ⟨fun same => ⟨a,rfl,same⟩,by rintro ⟨_,⟨⟩,same⟩; exact same⟩
  | error e => exact ⟨nofun,by rintro ⟨_,⟨⟩,_⟩⟩

@[simp] theorem ok_bind (a : α) (f : α → Except ε β) : (Except.ok a >>= f) = f a := rfl

@[simp] theorem error_bind (e : ε) (f : α → Except ε β) : (Except.error e >>= f) = .error e := rfl

@[simp] theorem pure_ok {b : α} : (pure a : Except ε α) = .ok b ↔ a = b := by
  simp [pure,Except.pure]

@[simp] theorem ensure_ok [Decidable condition] {error : ε} {u : PUnit} :
    ensure condition error = .ok u ↔ condition := by
  by_cases holds : condition <;> simp [ensure,holds]

theorem ensure_of [Decidable condition] {error : ε} (holds : condition) :
    ensure condition error = .ok ⟨⟩ := by
  simp [ensure,holds]

theorem ensure_error [Decidable condition] {error : ε} (fails : ¬ condition) :
    ensure condition error = .error error := by
  simp [ensure,fails]

@[simp] theorem require_ok {value : Option α} {error : ε} : require value error = .ok a ↔ value = some a := by
  cases value <;> simp [require]

@[simp] theorem require_some (a : α) (error : ε) : require (some a) error = .ok a := rfl

@[simp] theorem require_none (error : ε) : require (none : Option α) error = .error error := rfl

theorem mapError_ok {δ : Type u} {f : ε → δ} : x.mapError f = .ok a ↔ x = .ok a := by
  cases x <;> simp [Except.mapError]

/-! ### Lists -/

section
variable {α : Type u} {β : Type v} {r : α → β → Prop} {left : List α} {right : List β}

theorem exists_of_mem_left (each : List.Forall₂ r left right) {a : α} (member : a ∈ left) : ∃ b ∈ right, r a b := by
  induction each with
  | nil => cases member
  | cons pair _ ih =>
    obtain rfl | later := List.mem_cons.mp member
    · exact ⟨_,List.mem_cons_self,pair⟩
    · obtain ⟨b,there,holds⟩ := ih later
      exact ⟨b,List.mem_cons_of_mem _ there,holds⟩

theorem exists_of_mem_right (each : List.Forall₂ r left right) {b : β} (member : b ∈ right) : ∃ a ∈ left, r a b :=
  exists_of_mem_left each.flip member
end

variable {f : α → Except ε β} {out : List β}

/-- A list of calls succeeds where each of them does. -/
theorem mapM_ok {list : List α} :
    list.mapM f = .ok out ↔ List.Forall₂ (fun a b => f a = .ok b) list out := by
  induction list generalizing out with
  | nil => rw [List.mapM_nil,pure_ok,List.forall₂_nil_left_iff,eq_comm]
  | cons a rest ih =>
    simp only [List.mapM_cons,bind_ok,pure_ok,ih,List.forall₂_cons_left_iff]
    constructor
    · rintro ⟨b,first,others,rest,rfl⟩
      exact ⟨b,others,first,rest,rfl⟩
    · rintro ⟨b,others,first,rest,rfl⟩
      exact ⟨b,first,others,rest,rfl⟩

/-- A list of optional values is there where each of them is. -/
theorem mapM_eq_some {f : α → Option β} {list : List α} :
    list.mapM f = some out ↔ List.Forall₂ (fun a b => f a = some b) list out := by
  induction list generalizing out with
  | nil => simp [List.forall₂_nil_left_iff,eq_comm]
  | cons a rest ih =>
    simp only [List.mapM_cons,Option.bind_eq_bind,Option.bind_eq_some_iff,Option.pure_def,Option.some.injEq,ih,
      List.forall₂_cons_left_iff]
    constructor
    · rintro ⟨b,first,others,rest,rfl⟩
      exact ⟨b,others,first,rest,rfl⟩
    · rintro ⟨b,others,first,rest,rfl⟩
      exact ⟨b,first,others,rest,rfl⟩

theorem mapM_succeeds {list : List α} (each : ∀ a ∈ list, ∃ b, f a = .ok b) :
    ∃ out, list.mapM f = .ok out := by
  induction list with
  | nil => exact ⟨[],rfl⟩
  | cons a rest ih =>
    obtain ⟨b,first⟩ := each a List.mem_cons_self
    obtain ⟨out,others⟩ := ih fun c member => each c (List.mem_cons_of_mem a member)
    exact ⟨b :: out,by simp [first,others,pure,Except.pure]⟩

/-- What each call of a fold keeps holds at its end, and no call fails where
    what is kept lets it succeed. -/
theorem foldlM_keeps {f : β → α → Except ε β} {list : List α} {kept : β → Prop}
    (each : ∀ a ∈ list, ∀ b, kept b → ∃ c, f b a = .ok c ∧ kept c) {b : β} (first : kept b) :
    ∃ c, list.foldlM f b = .ok c ∧ kept c := by
  induction list generalizing b with
  | nil => exact ⟨b,rfl,first⟩
  | cons a rest ih =>
    obtain ⟨c,called,holds⟩ := each a List.mem_cons_self b first
    obtain ⟨d,others,last⟩ := ih (fun a' member => each a' (List.mem_cons_of_mem a member)) holds
    exact ⟨d,by rw [List.foldlM_cons,called,ok_bind,others],last⟩
end

end Proofstorm
