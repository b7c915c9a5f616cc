import Proofstorm.Interleaving

/-!
Calls that hold one lock, and so come one after the other. A call is a tree of
atomic steps as in `Interleaving`; it can be cut off between two of them, with
its lock released, and any of its statements can fail without effect. Meanwhile
others, who do not take the lock, change the state by `env`. What a call keeps
wherever it is cut, and what it promises when it ends, follow from what each of
its statements needs (`Carries.meets`).
-/
namespace Proofstorm.Sequenced
open Proofstorm.Interleaving (Call Performs advance performs_advance)
open Relation (ReflTransGen)

section
variable {Request State Statement Error Reply : Type} {Answer : Statement → Type}
  {exec : (statement : Statement) → State → Except Error (Answer statement × State)} {busy : Error}
  {env : State → State → Prop}

/-- The call takes the state to `last`, where it has ended with a reply or is cut off. -/
inductive Carries (exec : (statement : Statement) → State → Except Error (Answer statement × State)) (busy : Error)
    (env : State → State → Prop) :
    Call State Statement Error Answer Reply → State → Option Reply → State → Prop
  | cut (call : Call State Statement Error Answer Reply) (state : State) : Carries exec busy env call state none state
  | answer (reply : Reply) (state : State) : Carries exec busy env (.done reply) state (some reply) state
  | disturb {call : Call State Statement Error Answer Reply} {state middle last : State} {reply : Option Reply}
      (changed : env state middle) (rest : Carries exec busy env call middle reply last) :
    Carries exec busy env call state reply last
  | step {call next : Call State Statement Error Answer Reply} {state middle last : State} {did : Option Statement}
      {reply : Option Reply} (performed : Performs exec busy call state did middle next)
      (rest : Carries exec busy env next middle reply last) : Carries exec busy env call state reply last

/-- A call that meets its obligations against the environment keeps what its
    statements keep, wherever it is cut, and promises its postcondition. -/
theorem Carries.meets {needs : Statement → State → Prop} {post : Reply → State → Prop} {kept : State → Prop}
    {call : Call State Statement Error Answer Reply} {state last : State} {reply : Option Reply}
    (carries : Carries exec busy env call state reply last) (meets : call.Meets exec env needs post state)
    (first : kept state) (stable : ∀ a b, kept a → env a b → kept b)
    (own : ∀ statement a answer b, kept a → needs statement a → exec statement a = .ok (answer,b) → kept b) :
    kept last ∧ ∀ result, reply = some result → post result last := by
  induction carries with
  | cut => exact ⟨first,nofun⟩
  | answer result state =>
    refine ⟨first,?_⟩
    rintro _ ⟨⟩
    exact meets state .refl
  | disturb changed _ ih => exact ih (meets.later (.single changed)) (stable _ _ first changed)
  | @step call next state middle last did reply performed _ ih =>
    obtain ⟨allowed,left⟩ := performed.meets meets
    refine ih left ?_
    have committed := performed.committed () 0
    cases did with
    | none =>
      have same : middle = state := committed
      exact same ▸ first
    | some statement =>
      obtain ⟨answer,executed⟩ := committed
      exact own statement state answer middle first (allowed statement rfl) executed

/-- The call makes so many steps where no statement is refused, and is then cut off. -/
def advanced (exec : (statement : Statement) → State → Except Error (Answer statement × State)) :
    Nat → Call State Statement Error Answer Reply → State → Option Reply × State
  | _, .done reply, state => (some reply,state)
  | 0, _, state => (none,state)
  | fuel+1, call, state =>
    let step := advance exec call state
    advanced exec fuel step.2.2 step.2.1

theorem advanced_carries (fuel : Nat) (call : Call State Statement Error Answer Reply) (state : State) :
    Carries exec busy env call state (advanced exec fuel call state).1 (advanced exec fuel call state).2 := by
  induction fuel generalizing call state with
  | zero =>
    cases call with
    | done reply => exact .answer reply state
    | read next => exact .cut _ state
    | write statement next => exact .cut _ state
  | succ fuel ih =>
    cases call with
    | done reply => exact .answer reply state
    | read next => exact .step (performs_advance (.read next) state) (ih _ _)
    | write statement next => exact .step (performs_advance (.write statement next) state) (ih _ _)

/-! ### Runs -/

/-- One call of a run, between the states in which it took the lock and released it. -/
structure Record (Request State Reply : Type) where
  request : Request
  before : State
  after : State
  reply : Option Reply

/-- The runs from an initial state: their calls, newest first, and where they lead. -/
inductive Run (exec : (statement : Statement) → State → Except Error (Answer statement × State)) (busy : Error)
    (env : State → State → Prop) (code : Request → Call State Statement Error Answer Reply) (initial : State → Prop) :
    List (Record Request State Reply) → State → Prop
  | initial (state : State) (fits : initial state) : Run exec busy env code initial [] state
  | disturb {log : List (Record Request State Reply)} {state after : State}
      (run : Run exec busy env code initial log state) (changed : env state after) :
    Run exec busy env code initial log after
  | call {log : List (Record Request State Reply)} {state after : State} {reply : Option Reply}
      (run : Run exec busy env code initial log state) (request : Request)
      (carries : Carries exec busy env (code request) state reply after) :
    Run exec busy env code initial (⟨request,state,after,reply⟩ :: log) after
end

end Proofstorm.Sequenced
