import Proofstorm.Interleaving

/-!
A part of a larger state, with its own statements and errors. A call on the part
is a call on the whole (`Part.call`): it sees of each state what is in the part,
and what it keeps to there it keeps to here (`keeps_part`).
-/
namespace Proofstorm.Interleaving
universe u

/-- The part of `State'` that `view` shows, with the statements that change it. -/
structure Part (State Statement Error : Type) (Answer : Statement → Type) (State' Statement' Error' : Type)
    (Answer' : Statement' → Type) where
  view : State' → State
  statement : Statement → Statement'
  answer : (s : Statement) → Except Error' (Answer' (statement s)) → Except Error (Answer s)
  error : Error → Error'

section
variable {State Statement Error State' Statement' Error' : Type} {Answer : Statement → Type} {Answer' : Statement' → Type}
  {α : Type}

namespace Part

def embed (part : Part State Statement Error Answer State' Statement' Error' Answer') :
    Call State Statement Error Answer α → Call State' Statement' Error' Answer' α
  | .done result => .done result
  | .read next => .read fun state => part.embed (next (part.view state))
  | .write statement next => .write (part.statement statement) fun answer =>
    part.embed (next (part.answer statement answer))

/-- A call of the part as a call of the whole. -/
def call (part : Part State Statement Error Answer State' Statement' Error' Answer')
    (inner : Fallible State Statement Error Answer α) : Fallible State' Statement' Error' Answer' α :=
  ExceptT.mk (part.embed inner.run >>= fun outcome => .done (outcome.mapError part.error))

/-- A call of the part that only reads, with no step of another between its own. -/
def atOnce (part : Part State Statement Error Answer State' Statement' Error' Answer')
    (execute : (statement : Statement) → State → Except Error (Answer statement × State))
    (inner : Fallible State Statement Error Answer α) : Fallible State' Statement' Error' Answer' α :=
  query fun state => (inner.run.run execute (part.view state)).1.mapError part.error

theorem within_embed {part : Part State Statement Error Answer State' Statement' Error' Answer'}
    {fact : State → Prop} {allowed : Statement → Prop} {fact' : State' → Prop} {allowed' : Statement' → Prop}
    {post : α → Prop} {inner : Call State Statement Error Answer α}
    (within : inner.Within fact (fun statement _ => allowed statement) post)
    (shows : ∀ state, fact' state → fact (part.view state))
    (permits : ∀ statement, allowed statement → allowed' (part.statement statement)) :
    (part.embed inner).Within fact' (fun statement _ => allowed' statement) post := by
  induction inner with
  | done result => exact within
  | read next ih => exact fun state holds => ih _ (within _ (shows state holds))
  | write statement next ih => exact ⟨permits statement within.1,fun answer => ih _ (within.2 _)⟩
end Part

section
variable {execute : (statement : Statement) → State → Except Error (Answer statement × State)} {state : State} {β : Type}

/-- A call that begins with a read, run with no step of another between its own. -/
theorem run_query_ok {f : State → Except Error α} {k : α → Fallible State Statement Error Answer β} {value : β} :
    ((query f >>= k).run.run execute state).1 = .ok value ↔
      ∃ seen, f state = .ok seen ∧ ((k seen).run.run execute state).1 = .ok value := by
  rw [query_bind]
  simp only [Call.run]
  cases f state <;> simp [Call.run]
end

/-- What a call keeps to in the part it keeps to in the whole. -/
theorem keeps_part {part : Part State Statement Error Answer State' Statement' Error' Answer'}
    {fact : State → Prop} {allowed : Statement → Prop} {fact' : State' → Prop} {allowed' : Statement' → Prop}
    {post : α → Prop} {inner : Fallible State Statement Error Answer α} (keeps : Keeps fact allowed inner post)
    (shows : ∀ state, fact' state → fact (part.view state))
    (permits : ∀ statement, allowed statement → allowed' (part.statement statement)) :
    Keeps fact' allowed' (part.call inner) post := by
  have within := part.within_embed keeps shows permits
  rw [Keeps,Part.call,ExceptT.run_mk,Call.within_bind]
  refine within.mono (fun _ _ holds => holds) fun outcome holds => ?_
  cases outcome with
  | ok value => exact fun _ same => by cases same; exact holds value rfl
  | error error => exact fun _ same => by cases same
end

end Proofstorm.Interleaving
