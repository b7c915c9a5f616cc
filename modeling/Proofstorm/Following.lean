import Mathlib.Data.List.Basic
import Mathlib.Order.Lattice

/-!
A client that follows cursors. Each reply may name the cursor to ask with next, and
the client stops at a reply that names none. Where each reply holds the first part
of what its cursor leaves, and the next cursor leaves the rest, the replies together
hold everything (`follows_all`). A cursor that is the last entry of a page leaves
the greater entries of a sorted list (`after_take`).
-/
namespace Proofstorm.Following
universe u v w

section
variable {κ : Type u} {ρ : Type v} {α : Type w} {ε : Type}

/-- The replies that a client gets from a cursor on. -/
inductive Follows (ask : κ → Except ε ρ) (next : ρ → Option κ) : κ → List ρ → Prop
  | last {cursor : κ} {reply : ρ} (asked : ask cursor = .ok reply) (done : next reply = none) :
      Follows ask next cursor [reply]
  | more {cursor following : κ} {reply : ρ} {replies : List ρ} (asked : ask cursor = .ok reply)
      (onward : next reply = some following) (rest : Follows ask next following replies) :
      Follows ask next cursor (reply :: replies)

variable {ask : κ → Except ε ρ} {next : ρ → Option κ}

/-- What one reply does: it holds something of what its cursor leaves, and the next
    cursor leaves the rest. -/
structure Advances (ask : κ → Except ε ρ) (next : ρ → Option κ) (items : ρ → List α) (kept : κ → Prop) (left : κ → List α)
    (cursor : κ) (reply : ρ) : Prop where
  asked : ask cursor = .ok reply
  onward : ∀ following, next reply = some following →
    kept following ∧ items reply ≠ [] ∧ left cursor = items reply ++ left following
  done : next reply = none → items reply = left cursor

variable {items : ρ → List α} {kept : κ → Prop} {left : κ → List α}

/-- Where every reply advances, the client comes to an end and has everything. -/
theorem follows_all {good : ρ → Prop}
    (advances : ∀ cursor, kept cursor → ∃ reply, Advances ask next items kept left cursor reply ∧ good reply)
    {cursor : κ} (here : kept cursor) :
    ∃ replies, Follows ask next cursor replies ∧ replies.flatMap items = left cursor ∧ ∀ reply ∈ replies, good reply := by
  induction size : (left cursor).length using Nat.strongRecOn generalizing cursor with
  | ind size_ ih =>
    obtain ⟨reply,step,holds⟩ := advances cursor here
    cases onward : next reply with
    | none =>
      refine ⟨[reply],.last step.asked onward,?_,by simpa using holds⟩
      rw [List.flatMap_cons,List.flatMap_nil,List.append_nil,step.done onward]
    | some following =>
      obtain ⟨there,some_,parts⟩ := step.onward following onward
      have shorter : (left following).length < size_ := by
        have positive := List.length_pos_iff.mpr some_
        rw [← size,parts,List.length_append]
        omega
      obtain ⟨replies,rest,all,each⟩ := ih _ shorter there rfl
      refine ⟨reply :: replies,.more step.asked onward rest,?_,List.forall_mem_cons.mpr ⟨holds,each⟩⟩
      rw [List.flatMap_cons,all,parts]
end

section
variable {α : Type u} [LinearOrder α]

/-- The entries behind a cursor. -/
def after (all : List α) : Option α → List α
  | none => all
  | some cursor => all.filter (cursor < ·)

@[simp] theorem after_none (all : List α) : after all none = all := rfl

theorem filter_behind {entries : List α} (sorted : entries.Pairwise (· < ·)) {n : Nat} {x : α} (there : entries[n]? = some x) :
    entries.filter (x < ·) = entries.drop (n + 1) := by
  induction entries generalizing n with
  | nil => simp at there
  | cons head rest ih =>
    obtain ⟨first,others⟩ := List.pairwise_cons.mp sorted
    cases n with
    | zero =>
      obtain rfl := Option.some.inj there
      have all : rest.filter (head < ·) = rest := List.filter_eq_self.mpr fun entry member => by simpa using first entry member
      rw [List.filter_cons,if_neg (by simp),all]
      rfl
    | succ n =>
      have later : rest[n]? = some x := there
      have less : head < x := first x (List.mem_of_getElem? later)
      rw [List.filter_cons,if_neg (by simpa using less.le),ih others later]
      rfl

theorem after_sorted {all : List α} (sorted : all.Pairwise (· < ·)) (cursor : Option α) :
    (after all cursor).Pairwise (· < ·) := by
  cases cursor with
  | none => exact sorted
  | some cursor => exact sorted.filter _

/-- The last entry of a page is the cursor of what is behind the page. -/
theorem after_take {all : List α} (sorted : all.Pairwise (· < ·)) {cursor : Option α} {n : Nat} {x : α}
    (there : (after all cursor)[n]? = some x) :
    after all cursor = (after all cursor).take (n + 1) ++ after all (some x) := by
  have behind : after all (some x) = (after all cursor).drop (n + 1) := by
    rw [← filter_behind (after_sorted sorted cursor) there]
    cases cursor with
    | none => rfl
    | some cursor =>
      have member := List.mem_of_getElem? there
      rw [after,List.mem_filter] at member
      have beyond : cursor < x := by simpa using member.2
      rw [after,after,List.filter_filter]
      refine List.filter_congr fun entry _ => ?_
      by_cases more : x < entry
      · simp [more,beyond.trans more]
      · simp [more]
  rw [behind,List.take_append_drop]
end

end Proofstorm.Following
