import Proofstorm.Interleaving

/-!
Replies that are true when they are given. What a call learned from a read may be
out of date by its next step, so a fact about its reply and the state holds at
the end of the call only where the last step of the call establishes it
(`Call.Prompt`). Where each call does so, each reply of a run satisfies its fact
in the state in which it is given (`Reachable.prompt`).
-/
namespace Proofstorm.Interleaving

section
variable {Request State Statement Error Reply : Type} {Answer : Statement → Type}
  (exec : (statement : Statement) → State → Except Error (Answer statement × State))

namespace Call

/-- A result of the call, if it has one, satisfies `post`. -/
def Ends (post : Reply → State → Prop) (call : Call State Statement Error Answer Reply) (state : State) : Prop :=
  ∀ result, call.result? = some result → post result state

/-- Whatever it reads and whatever it is answered, the step with which the call
    ends makes `post` true of the result. -/
def Prompt (post : Reply → State → Prop) : Call State Statement Error Answer Reply → Prop
  | .done result => ∀ state, post result state
  | .read next => ∀ state, (next state).Ends post state ∧ ((next state).result? = none → (next state).Prompt post)
  | .write statement next =>
    (∀ state answer after, exec statement state = .ok (answer,after) → (next (.ok answer)).Ends post after ∧
      ((next (.ok answer)).result? = none → (next (.ok answer)).Prompt post)) ∧
    ∀ error, (∀ state, (next (.error error)).Ends post state) ∧
      ((next (.error error)).result? = none → (next (.error error)).Prompt post)

/-- What is left of a prompt call after a step to the state. -/
def Settles (post : Reply → State → Prop) (call : Call State Statement Error Answer Reply) (state : State) : Prop :=
  call.Ends post state ∧ (call.result? = none → call.Prompt exec post)

variable {exec} {post : Reply → State → Prop}

theorem Settles.done {result : Reply} {state : State} (holds : post result state) :
    (Call.done result : Call State Statement Error Answer Reply).Settles exec post state :=
  ⟨fun _ same => Option.some.inj same ▸ holds,nofun⟩

theorem Settles.read {next : State → Call State Statement Error Answer Reply} {state : State}
    (each : ∀ state, (next state).Settles exec post state) : (Call.read next).Settles exec post state :=
  ⟨nofun,fun _ => each⟩

theorem Settles.write {statement : Statement}
    {next : Except Error (Answer statement) → Call State Statement Error Answer Reply} {state : State}
    (success : ∀ state answer after, exec statement state = .ok (answer,after) →
      (next (.ok answer)).Settles exec post after)
    (failure : ∀ error state, (next (.error error)).Settles exec post state) :
    (Call.write statement next).Settles exec post state :=
  ⟨nofun,fun _ => ⟨success,fun error => ⟨fun now => (failure error now).1,(failure error state).2⟩⟩⟩

theorem Settles.proceed {α Value : Type} {outcome : Except Error α} {post : Except Error Value → State → Prop}
    {k : α → Call State Statement Error Answer (Except Error Value)} {state : State}
    (failed : ∀ error, post (.error error) state)
    (value : ∀ value, outcome = .ok value → (k value).Settles exec post state) :
    (Interleaving.proceed outcome k).Settles exec post state := by
  cases outcome with
  | ok result => exact value result rfl
  | error error => exact .done (failed error)

theorem Prompt.of_all (all : ∀ result state, post result state) (call : Call State Statement Error Answer Reply) :
    call.Prompt exec post := by
  induction call with
  | done result => exact all result
  | read next ih => exact fun state => ⟨fun result _ => all result state,fun _ => ih state⟩
  | write statement next ih =>
    constructor
    · exact fun _ answer after _ => ⟨fun result _ => all result after,fun _ => ih (.ok answer)⟩
    · exact fun error => ⟨fun state result _ => all result state,fun _ => ih (.error error)⟩
end Call

variable {exec} {busy : Error} {code : Request → Call State Statement Error Answer Reply} {initial : State}

/-- One step of a prompt call. -/
theorem Performs.prompt {post : Reply → State → Prop} {call rest : Call State Statement Error Answer Reply}
    {state after : State} {did : Option Statement} (step : Performs exec busy call state did after rest)
    (prompt : call.Prompt exec post) : rest.Settles exec post after := by
  cases step with
  | answer result => exact .done (prompt state)
  | read next => exact prompt state
  | commit statement next _ answer after executed => exact prompt.1 state answer after executed
  | fail statement next _ error => exact ⟨(prompt.2 error).1 state,(prompt.2 error).2⟩
  | refuse statement next => exact ⟨(prompt.2 busy).1 state,(prompt.2 busy).2⟩

/-- Where all calls are prompt, every reply of a run is true when it is given. -/
theorem Reachable.prompt {post : Request → Reply → State → Prop}
    {config : Config Request State Statement Error Answer Reply} (reached : Reachable exec busy code initial config)
    (starts : ∀ request, (code request).Prompt exec (post request)) :
    (∀ entry ∈ config.pool, entry.code.Prompt exec (post entry.request)) ∧
      Throughout (fun _ event => ∀ reply, event.reply = some reply → post event.request reply event.after) config.log := by
  induction reached with
  | initial => exact ⟨by simp,trivial⟩
  | @step config next _ step ih =>
    obtain ⟨pool,log⟩ := ih
    cases step with
    | start request =>
      refine ⟨fun entry member => ?_,log⟩
      rcases List.mem_cons.mp member with rfl | member
      · exact starts request
      · exact pool entry member
    | perform front back entry here did after rest step =>
      obtain ⟨ends,left⟩ := step.prompt (pool entry (by simp [here]))
      refine ⟨fun other member => ?_,ends,log⟩
      rcases of_mem_remaining here member with old | ⟨rfl,going⟩
      · exact pool other old
      · exact left going
    | crash front back entry here =>
      exact ⟨fun other member => pool other (of_mem_lost here member),log⟩
end

end Proofstorm.Interleaving
