import Mathlib.Data.List.Basic

/-!
A queue of things to visit, each of which is visited once and may put others in line.
With no more put in line by a visit than edges lead to the visited, as many turns as the
queue is long and there are edges empty it, and what every turn keeps holds at the end of
an empty queue.
-/
namespace Proofstorm.Worklist

section
variable {ι σ : Type} [DecidableEq ι]

/-- So many turns of a queue. A visit changes the state and puts others at the end of the line. -/
def run (visit : ι → σ → σ × List ι) : ℕ → σ → List ι → List ι → σ
  | 0, state, _, _ => state
  | _ + 1, state, [], _ => state
  | turns + 1, state, next :: queue, visited =>
    if next ∈ visited then run visit turns state queue visited
    else run visit turns (visit next state).1 (queue ++ (visit next state).2) (next :: visited)

/-- The edges to what has not been visited. -/
def pending (edges : List (ι × ι)) (visited : List ι) : List (ι × ι) := edges.filter fun edge => edge.2 ∉ visited

/-- The edges to a visited thing are pending no more. -/
theorem pending_cons (edges : List (ι × ι)) {next : ι} {visited : List ι} (fresh : next ∉ visited) :
    (pending edges (next :: visited)).length + (edges.filter fun edge => edge.2 = next).length =
      (pending edges visited).length := by
  induction edges with
  | nil => rfl
  | cons edge rest ih =>
    simp only [pending,List.mem_cons] at ih ⊢
    by_cases here : edge.2 = next
    · simp only [here,List.filter_cons,true_or,not_true_eq_false,decide_false,decide_true,fresh,
        not_false_eq_true,if_true,List.length_cons,Bool.false_eq_true,if_false]
      omega
    · by_cases seen : edge.2 ∈ visited
      · simp only [here,seen,List.filter_cons,or_true,not_true_eq_false,decide_false,Bool.false_eq_true,
          if_false]
        exact ih
      · simp only [here,seen,List.filter_cons,or_self,not_false_eq_true,decide_true,if_true,decide_false,
          Bool.false_eq_true,if_false,List.length_cons]
        omega

variable {visit : ι → σ → σ × List ι}

/-- What every turn keeps holds when the line is empty, which it is in time. -/
theorem run_end (keeps : σ → List ι → List ι → Prop) (edges : List (ι × ι))
    (skip : ∀ state next queue visited, keeps state (next :: queue) visited → next ∈ visited → keeps state queue visited)
    (turn : ∀ state next queue visited, keeps state (next :: queue) visited → next ∉ visited →
      keeps (visit next state).1 (queue ++ (visit next state).2) (next :: visited))
    (bounded : ∀ state next, (visit next state).2.length ≤ (edges.filter fun edge => edge.2 = next).length)
    {turns : ℕ} {state : σ} {queue visited : List ι} (kept : keeps state queue visited)
    (enough : queue.length + (pending edges visited).length ≤ turns) :
    ∃ done, keeps (run visit turns state queue visited) [] done := by
  induction turns generalizing state queue visited with
  | zero =>
    cases queue with
    | nil => exact ⟨visited,kept⟩
    | cons next queue =>
      rw [List.length_cons] at enough
      omega
  | succ turns ih =>
    cases queue with
    | nil => exact ⟨visited,kept⟩
    | cons next queue =>
      rw [run]
      rw [List.length_cons] at enough
      split_ifs with seen
      · exact ih (skip state next queue visited kept seen) (by omega)
      · refine ih (turn state next queue visited kept seen) ?_
        have fewer := pending_cons edges seen
        have few := bounded state next
        rw [List.length_append]
        omega

end

end Proofstorm.Worklist
