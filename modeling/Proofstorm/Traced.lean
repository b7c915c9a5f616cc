import Proofstorm.Deeds

/-!
Calls that run one after the other, each with a record of its own steps. A call
makes its steps while others change the state by `env`, and ends or is cut off
after any of them (`Trace`). What a call asks of its own deeds, it has done
(`Trace.allowed`), and what `env` and its statements keep, is kept from each of
its steps to every state after it (`Trace.from_moment`, `Processes.since`).
-/
namespace Proofstorm.Sequenced
open Proofstorm.Interleaving

section
variable {Request State Statement Error Reply : Type} {Answer : Statement → Type}

/-- One step of a call, with the states before and after it. -/
structure Moment (State Statement : Type) (Answer : Statement → Type) where
  deed : Deed State Statement Answer
  before : State
  after : State

/-- The step that a call makes. A statement fails on its own, or is refused with `busy`. -/
inductive Makes (exec : (statement : Statement) → State → Except Error (Answer statement × State)) (busy : Error) :
    Call State Statement Error Answer Reply → Moment State Statement Answer →
      Call State Statement Error Answer Reply → Prop
  | read (next : State → Call State Statement Error Answer Reply) (state : State) :
    Makes exec busy (.read next) ⟨.read state,state,state⟩ (next state)
  | did (statement : Statement) (next : Except Error (Answer statement) → Call State Statement Error Answer Reply)
      (state : State) (answer : Answer statement) (after : State)
      (executed : exec statement state = .ok (answer,after)) :
    Makes exec busy (.write statement next) ⟨.did statement answer,state,after⟩ (next (.ok answer))
  | failed (statement : Statement) (next : Except Error (Answer statement) → Call State Statement Error Answer Reply)
      (state : State) (error : Error) (why : exec statement state = .error error ∨ error = busy) :
    Makes exec busy (.write statement next) ⟨.failed statement,state,state⟩ (next (.error error))

/-- The steps of a call so far, newest first, what is left of it, and the state now. -/
inductive Trace (exec : (statement : Statement) → State → Except Error (Answer statement × State)) (busy : Error)
    (env : State → State → Prop) (call : Call State Statement Error Answer Reply) (first : State) :
    List (Moment State Statement Answer) → Call State Statement Error Answer Reply → State → Prop
  | start : Trace exec busy env call first [] call first
  | disturb {moments : List (Moment State Statement Answer)} {rest : Call State Statement Error Answer Reply}
      {state after : State} (trace : Trace exec busy env call first moments rest state) (changed : env state after) :
    Trace exec busy env call first moments rest after
  | step {moments : List (Moment State Statement Answer)} {rest next : Call State Statement Error Answer Reply}
      {state : State} {moment : Moment State Statement Answer}
      (trace : Trace exec busy env call first moments rest state) (makes : Makes exec busy rest moment next)
      (here : moment.before = state) : Trace exec busy env call first (moment :: moments) next moment.after

/-- One call of a run. -/
structure Process (Request State Statement Reply : Type) (Answer : Statement → Type) where
  request : Request
  before : State
  moments : List (Moment State Statement Answer)
  after : State
  reply : Option Reply

/-- The deeds of the call, newest first. -/
def Process.deeds (process : Process Request State Statement Reply Answer) : List (Deed State Statement Answer) :=
  process.moments.map Moment.deed

/-- The runs: their calls, newest first, each with its reply or cut off, and where they lead. -/
inductive Processes (exec : (statement : Statement) → State → Except Error (Answer statement × State)) (busy : Error)
    (env : State → State → Prop) (code : Request → Call State Statement Error Answer Reply) (initial : State) :
    List (Process Request State Statement Reply Answer) → State → Prop
  | initial : Processes exec busy env code initial [] initial
  | disturb {log : List (Process Request State Statement Reply Answer)} {state after : State}
      (run : Processes exec busy env code initial log state) (changed : env state after) :
    Processes exec busy env code initial log after
  | call {log : List (Process Request State Statement Reply Answer)} {state after : State}
      (run : Processes exec busy env code initial log state) (request : Request)
      {moments : List (Moment State Statement Answer)} {rest : Call State Statement Error Answer Reply}
      (trace : Trace exec busy env (code request) state moments rest after) :
    Processes exec busy env code initial (⟨request,state,moments,after,rest.result?⟩ :: log) after

section
variable {exec : (statement : Statement) → State → Except Error (Answer statement × State)} {busy : Error}
  {env : State → State → Prop} {call rest : Call State Statement Error Answer Reply} {first state : State}
  {moments : List (Moment State Statement Answer)}

/-! ### One call -/

section
variable {allows : List (Deed State Statement Answer) → Statement → Prop}
  {post : List (Deed State Statement Answer) → Reply → Prop}

/-- A step is made where the deeds before it allow it, and the rest goes on from there. -/
theorem Makes.grounded {moment : Moment State Statement Answer} {next : Call State Statement Error Answer Reply}
    {deeds : List (Deed State Statement Answer)} (makes : Makes exec busy rest moment next)
    (grounded : rest.Grounded allows post deeds) :
    next.Grounded allows post (moment.deed :: deeds) ∧
      ∀ statement answer, moment.deed = .did statement answer → allows deeds statement := by
  cases makes with
  | read next state => exact ⟨grounded state,nofun⟩
  | did statement next state answer after executed =>
    refine ⟨grounded.2.1 answer,?_⟩
    rintro _ _ ⟨⟩
    exact grounded.1
  | failed statement next state error why => exact ⟨grounded.2.2 error,nofun⟩

/-- What is left of a call is grounded in what it has done. -/
theorem Trace.grounded (trace : Trace exec busy env call first moments rest state)
    (grounded : call.Grounded allows post []) : rest.Grounded allows post (moments.map Moment.deed) := by
  induction trace with
  | start => exact grounded
  | disturb _ _ ih => exact ih
  | step _ makes _ ih => exact (makes.grounded ih).1

/-- A call has executed a statement only after deeds that allow it. -/
theorem Trace.allowed (trace : Trace exec busy env call first moments rest state)
    (grounded : call.Grounded allows post []) {newer older : List (Moment State Statement Answer)}
    {moment : Moment State Statement Answer} (place : moments = newer ++ moment :: older) {statement : Statement}
    {answer : Answer statement} (did : moment.deed = .did statement answer) :
    allows (older.map Moment.deed) statement := by
  induction trace generalizing newer with
  | start => simp at place
  | disturb _ _ ih => exact ih place
  | step trace makes _ ih =>
    cases newer with
    | nil =>
      obtain ⟨rfl,rfl⟩ := List.cons.inj place
      exact (makes.grounded (trace.grounded grounded)).2 statement answer did
    | cons last newer => exact ih (List.cons.inj place).2

/-- The result of a call that has ended. -/
theorem Trace.reply (trace : Trace exec busy env call first moments rest state)
    (grounded : call.Grounded allows post []) {result : Reply} (ended : rest.result? = some result) :
    post (moments.map Moment.deed) result := by
  have left := trace.grounded grounded
  cases rest with
  | done value =>
    cases ended
    exact left
  | read next => cases ended
  | write statement next => cases ended
end

variable {moment : Moment State Statement Answer}

/-- A statement that a call has executed had this effect. -/
theorem Trace.executed (trace : Trace exec busy env call first moments rest state)
    (member : moment ∈ moments) {statement : Statement} {answer : Answer statement}
    (did : moment.deed = .did statement answer) : exec statement moment.before = .ok (answer,moment.after) := by
  induction trace with
  | start => cases member
  | disturb _ _ ih => exact ih member
  | step trace makes here ih =>
    rcases List.mem_cons.mp member with rfl | member
    · cases makes with
      | did _ _ _ _ _ executed =>
        cases did
        exact executed
      | _ => exact nomatch did
    · exact ih member

/-- What a relation needs to hold along a call: the others keep it, and so does each
    statement of the call. -/
structure Along (exec : (statement : Statement) → State → Except Error (Answer statement × State))
    (env : State → State → Prop) (moments : List (Moment State Statement Answer)) (R : State → State → Prop) : Prop where
  refl : ∀ state, R state state
  trans : ∀ a b c, R a b → R b c → R a c
  others : ∀ a b, env a b → R a b
  own : ∀ moment ∈ moments, ∀ statement answer, moment.deed = .did statement answer →
    exec statement moment.before = .ok (answer,moment.after) → R moment.before moment.after

variable {R : State → State → Prop}

theorem Along.older (along : Along exec env (moment :: moments) R) : Along exec env moments R :=
  { along with own := fun other member => along.own other (List.mem_cons_of_mem _ member) }

/-- A step without a statement changes nothing. -/
theorem Along.step {R : State → State → Prop}
    {next : Call State Statement Error Answer Reply} (along : Along exec env moments R) (member : moment ∈ moments)
    (makes : Makes exec busy rest moment next) : R moment.before moment.after := by
  cases makes with
  | read => exact along.refl _
  | did statement _ _ answer _ executed => exact along.own _ member statement answer rfl executed
  | failed => exact along.refl _

theorem Trace.across (trace : Trace exec busy env call first moments rest state)
    (along : Along exec env moments R) : R first state := by
  induction trace with
  | start => exact along.refl _
  | disturb _ changed ih => exact along.trans _ _ _ (ih along) (along.others _ _ changed)
  | step _ makes here ih => exact along.trans _ _ _ (ih along.older) (here ▸ along.step List.mem_cons_self makes)

/-- From the first state to each step, over it, and from there to the last state. -/
theorem Trace.from_moment (trace : Trace exec busy env call first moments rest state)
    (along : Along exec env moments R) (member : moment ∈ moments) :
    R first moment.before ∧ R moment.before moment.after ∧ R moment.after state := by
  induction trace with
  | start => cases member
  | disturb _ changed ih =>
    obtain ⟨up,during,on⟩ := ih along member
    exact ⟨up,during,along.trans _ _ _ on (along.others _ _ changed)⟩
  | @step moments _ _ middle last trace makes here ih =>
    have during := along.step List.mem_cons_self makes
    rcases List.mem_cons.mp member with rfl | member
    · exact ⟨here ▸ trace.across along.older,during,along.refl _⟩
    · obtain ⟨up,through,on⟩ := ih along.older member
      exact ⟨up,through,along.trans _ _ _ on (here ▸ during)⟩

end

/-! ### Schedules -/

/-- So many steps of a call with no other between them, none of its statements refused. -/
def stepped (exec : (statement : Statement) → State → Except Error (Answer statement × State)) :
    Nat → Call State Statement Error Answer Reply → State → List (Moment State Statement Answer) →
      List (Moment State Statement Answer) × Call State Statement Error Answer Reply × State
  | 0, call, state, moments => (moments,call,state)
  | _, .done reply, state, moments => (moments,.done reply,state)
  | fuel+1, .read next, state, moments => stepped exec fuel (next state) state (⟨.read state,state,state⟩ :: moments)
  | fuel+1, .write statement next, state, moments =>
    match exec statement state with
    | .ok (answer,after) => stepped exec fuel (next (.ok answer)) after (⟨.did statement answer,state,after⟩ :: moments)
    | .error error => stepped exec fuel (next (.error error)) state (⟨.failed statement,state,state⟩ :: moments)

theorem Trace.stepped {exec : (statement : Statement) → State → Except Error (Answer statement × State)} {busy : Error}
    {env : State → State → Prop} {call rest : Call State Statement Error Answer Reply} {first state : State}
    {moments : List (Moment State Statement Answer)} (fuel : Nat) (trace : Trace exec busy env call first moments rest state) :
    Trace exec busy env call first (stepped exec fuel rest state moments).1 (stepped exec fuel rest state moments).2.1
      (stepped exec fuel rest state moments).2.2 := by
  induction fuel generalizing rest state moments with
  | zero => cases rest <;> exact trace
  | succ fuel ih =>
    cases rest with
    | done reply => exact trace
    | read next => exact ih (trace.step (.read next state) rfl)
    | write statement next =>
      rw [Sequenced.stepped]
      cases executed : exec statement state with
      | ok outcome =>
        obtain ⟨answer,after⟩ := outcome
        exact ih (trace.step (.did statement next state answer after executed) rfl)
      | error error => exact ih (trace.step (.failed statement next state error (.inl executed)) rfl)

/-- The record of such a call. -/
def steppedProcess (exec : (statement : Statement) → State → Except Error (Answer statement × State))
    (code : Request → Call State Statement Error Answer Reply) (fuel : Nat) (request : Request) (state : State) :
    Process Request State Statement Reply Answer :=
  let after := stepped exec fuel (code request) state []
  ⟨request,state,after.1,after.2.2,after.2.1.result?⟩

/-! ### Runs -/

section
variable {exec : (statement : Statement) → State → Except Error (Answer statement × State)} {busy : Error}
  {env : State → State → Prop} {code : Request → Call State Statement Error Answer Reply} {initial state : State}
  {log : List (Process Request State Statement Reply Answer)}

/-- Each call of a run has a trace. -/
theorem Processes.trace (run : Processes exec busy env code initial log state)
    {process : Process Request State Statement Reply Answer} (member : process ∈ log) :
    ∃ rest, Trace exec busy env (code process.request) process.before process.moments rest process.after ∧
      process.reply = rest.result? := by
  induction run with
  | initial => cases member
  | disturb _ _ ih => exact ih member
  | call _ request trace ih =>
    rcases List.mem_cons.mp member with rfl | member
    · exact ⟨_,trace,rfl⟩
    · exact ih member

/-- From the initial state to where a call began, and from its end to the last state. -/
theorem Processes.since {R : State → State → Prop} (run : Processes exec busy env code initial log state)
    (along : ∀ process ∈ log, Along exec env process.moments R) (refl : ∀ state, R state state)
    (trans : ∀ a b c, R a b → R b c → R a c) (others : ∀ a b, env a b → R a b) :
    R initial state ∧ ∀ process ∈ log, R initial process.before ∧ R process.after state := by
  induction run with
  | initial => exact ⟨refl _,by simp⟩
  | disturb _ changed ih =>
    obtain ⟨whole,each⟩ := ih along
    exact ⟨trans _ _ _ whole (others _ _ changed),fun process member =>
      ⟨(each process member).1,trans _ _ _ (each process member).2 (others _ _ changed)⟩⟩
  | call _ request trace ih =>
    obtain ⟨whole,each⟩ := ih fun process member => along process (List.mem_cons_of_mem _ member)
    have during := trace.across (along _ List.mem_cons_self)
    refine ⟨trans _ _ _ whole during,fun process member => ?_⟩
    rcases List.mem_cons.mp member with rfl | member
    · exact ⟨whole,refl _⟩
    · exact ⟨(each process member).1,trans _ _ _ (each process member).2 during⟩

theorem Processes.stepped (run : Processes exec busy env code initial log state) (fuel : Nat) (request : Request) :
    Processes exec busy env code initial (steppedProcess exec code fuel request state :: log)
      (steppedProcess exec code fuel request state).after :=
  run.call request (Trace.start.stepped fuel)

/-- From the end of a call to the beginning of each later one. -/
theorem Processes.between {R : State → State → Prop} (run : Processes exec busy env code initial log state)
    (along : ∀ process ∈ log, Along exec env process.moments R) (refl : ∀ state, R state state)
    (trans : ∀ a b c, R a b → R b c → R a c) (others : ∀ a b, env a b → R a b) :
    log.Pairwise fun later earlier => R earlier.after later.before := by
  induction run with
  | initial => exact .nil
  | disturb _ _ ih => exact ih along
  | call run request trace ih =>
    have older := fun process member => along process (List.mem_cons_of_mem _ member)
    exact .cons (fun process member => (run.since older refl trans others).2 process member |>.2) (ih older)
end

end

end Proofstorm.Sequenced
