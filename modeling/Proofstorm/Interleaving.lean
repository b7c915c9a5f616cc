import Mathlib.Algebra.Order.Ring.Int
import Mathlib.Logic.Relation

/-!
Calls that share one state. A call is a tree of atomic steps: it reads the state
or executes one statement, and what it does next depends on what it saw. Any
number of calls run side by side and interleave at these steps (`Step`); a call
can also be lost between two of them, and the engine can refuse a statement
without effect. `log` keeps what happened, newest first, so that the runs of the
system are its logs. A statement's precondition is proved about one call with
the steps of all others between its own (`Call.Meets`) and then holds of every
run (`Reachable.scoped`); what the statements of a call keep whatever the others do
(`Call.Within`) is an invariant of every run (`Reachable.invariant`).
-/
namespace Proofstorm.Interleaving
open Relation (ReflTransGen)

/-- A call in progress that ends with a result of type `α`. `Answer` says what
    each statement returns when the engine executes it. -/
inductive Call (State Statement Error : Type) (Answer : Statement → Type) (α : Type) : Type
  | done (result : α)
  | read (next : State → Call State Statement Error Answer α)
  | write (statement : Statement) (next : Except Error (Answer statement) → Call State Statement Error Answer α)

section
variable {State Statement Error : Type} {Answer : Statement → Type} {α β : Type}

namespace Call

def bind (call : Call State Statement Error Answer α) (k : α → Call State Statement Error Answer β) :
    Call State Statement Error Answer β :=
  match call with
  | .done result => k result
  | .read next => .read (fun state => (next state).bind k)
  | .write statement next => .write statement (fun answer => (next answer).bind k)

instance : Monad (Call State Statement Error Answer) where
  pure := .done
  bind := bind

@[simp] theorem read_bind (next : State → Call State Statement Error Answer α)
    (k : α → Call State Statement Error Answer β) :
    (Call.read next >>= k) = .read (fun state => next state >>= k) := rfl

@[simp] theorem write_bind (statement : Statement)
    (next : Except Error (Answer statement) → Call State Statement Error Answer α)
    (k : α → Call State Statement Error Answer β) :
    (Call.write statement next >>= k) = .write statement (fun answer => next answer >>= k) := rfl

instance : LawfulMonad (Call State Statement Error Answer) := by
  refine LawfulMonad.mk' _ ?_ (fun _ _ => rfl) ?_
  · intro α call
    change call.bind (fun result => .done result) = call
    induction call with
    | done result => rfl
    | read next ih => exact congrArg Call.read (funext ih)
    | write statement next ih => exact congrArg (Call.write statement) (funext ih)
  · intro α β γ call f g
    change (call.bind f).bind g = call.bind fun result => (f result).bind g
    induction call with
    | done result => rfl
    | read next ih => exact congrArg Call.read (funext ih)
    | write statement next ih => exact congrArg (Call.write statement) (funext ih)

/-- The result of a call that has ended. -/
def result? : Call State Statement Error Answer α → Option α
  | .done result => some result
  | _ => none

variable {call : Call State Statement Error Answer α}

theorem of_result? {result : α} (ended : call.result? = some result) :
    call = .done result := by
  cases call with
  | done other => exact congrArg done (Option.some.inj ended)
  | read => cases ended
  | write => cases ended

/-- The call runs with no other step between its own. -/
def run (execute : (statement : Statement) → State → Except Error (Answer statement × State)) :
    Call State Statement Error Answer α → State → α × State
  | .done result, state => (result,state)
  | .read next, state => (next state).run execute state
  | .write statement next, state =>
    match execute statement state with
    | .ok (answer,after) => (next (.ok answer)).run execute after
    | .error error => (next (.error error)).run execute state

theorem run_bind (execute : (statement : Statement) → State → Except Error (Answer statement × State))
    (call : Call State Statement Error Answer α) (k : α → Call State Statement Error Answer β) (state : State) :
    (call >>= k).run execute state = (k (call.run execute state).1).run execute (call.run execute state).2 := by
  induction call generalizing state with
  | done result => rfl
  | read next ih => exact ih state state
  | write statement next ih =>
    simp only [write_bind,run]
    cases execute statement state with
    | ok outcome => exact ih (.ok outcome.1) outcome.2
    | error error => exact ih (.error error) state

/-- Where every state the call reads satisfies `fact`, it comes to execute only
    statements that are `allowed`, given what it does with their answers, and
    ends only with results that satisfy `post`. -/
def Within (fact : State → Prop)
    (allowed : (statement : Statement) → (Except Error (Answer statement) → Call State Statement Error Answer α) → Prop)
    (post : α → Prop) : Call State Statement Error Answer α → Prop
  | .done result => post result
  | .read next => ∀ state, fact state → (next state).Within fact allowed post
  | .write statement next => allowed statement next ∧ ∀ answer, (next answer).Within fact allowed post

variable {fact : State → Prop} {post : α → Prop}
  {allowed : (statement : Statement) → (Except Error (Answer statement) → Call State Statement Error Answer α) → Prop}

theorem Within.mono {goal : α → Prop}
    {permitted : (statement : Statement) → (Except Error (Answer statement) → Call State Statement Error Answer α) → Prop}
    (within : call.Within fact allowed post)
    (weaker : ∀ statement next, allowed statement next → permitted statement next)
    (implied : ∀ result, post result → goal result) : call.Within fact permitted goal := by
  induction call with
  | done result => exact implied result within
  | read next ih => exact fun state holds => ih state (within state holds)
  | write statement next ih => exact ⟨weaker statement next within.1,fun answer => ih answer (within.2 answer)⟩

/-- Where the call reads fewer states. -/
theorem Within.narrow {fewer : State → Prop}
    (within : call.Within fact allowed post)
    (among : ∀ state, fewer state → fact state) : call.Within fewer allowed post := by
  induction call with
  | done result => exact within
  | read next ih => exact fun state holds => ih state (within state (among state holds))
  | write statement next ih => exact ⟨within.1,fun answer => ih answer (within.2 answer)⟩

theorem within_trivial (all : ∀ statement next, allowed statement next)
    (any : ∀ result, post result) : call.Within fact allowed post := by
  induction call with
  | done result => exact any result
  | read next ih => exact fun state _ => ih state
  | write statement next ih => exact ⟨all statement next,ih⟩

theorem within_bind {allowed : Statement → Prop} {post : β → Prop}
    {k : α → Call State Statement Error Answer β} :
    (call >>= k).Within fact (fun statement _ => allowed statement) post ↔
      call.Within fact (fun statement _ => allowed statement)
        fun result => (k result).Within fact (fun statement _ => allowed statement) post := by
  induction call with
  | done result => exact Iff.rfl
  | read next ih => exact forall_congr' fun state => imp_congr_right fun _ => ih state
  | write statement next ih => exact and_congr_right fun _ => forall_congr' ih

/-- Whatever steps of `rely` the others make between those of the call, the call
    executes a statement only where its precondition holds, and ends only where
    the result satisfies `post`. -/
def Meets (execute : (statement : Statement) → State → Except Error (Answer statement × State))
    (rely : State → State → Prop) (needs : Statement → State → Prop) (post : α → State → Prop) :
    Call State Statement Error Answer α → State → Prop
  | .done result, state => ∀ now, ReflTransGen rely state now → post result now
  | .read next, state => ∀ now, ReflTransGen rely state now → (next now).Meets execute rely needs post now
  | .write statement next, state => ∀ now, ReflTransGen rely state now → needs statement now ∧
      (∀ answer after, execute statement now = .ok (answer,after) →
        (next (.ok answer)).Meets execute rely needs post after) ∧
      ∀ error, (next (.error error)).Meets execute rely needs post now

section
variable {execute : (statement : Statement) → State → Except Error (Answer statement × State)}
  {rely : State → State → Prop} {needs : Statement → State → Prop}

variable {post : α → State → Prop} {call : Call State Statement Error Answer α}

theorem Meets.later {state now : State}
    (meets : call.Meets execute rely needs post state) (steps : ReflTransGen rely state now) :
    call.Meets execute rely needs post now := by
  cases call with
  | done result => exact fun last more => meets last (steps.trans more)
  | read next => exact fun last more => meets last (steps.trans more)
  | write statement next => exact fun last more => meets last (steps.trans more)

/-- The postcondition holds for as long as the others only make their steps. -/
theorem Meets.always {state : State}
    (meets : call.Meets execute rely needs post state) :
    call.Meets execute rely needs (fun result now => ∀ last, ReflTransGen rely now last → post result last) state := by
  induction call generalizing state with
  | done result => exact fun now steps last more => meets last (steps.trans more)
  | read next ih => exact fun now steps => ih now (meets now steps)
  | write statement next ih =>
    intro now steps
    obtain ⟨holds,success,failure⟩ := meets now steps
    exact ⟨holds,fun answer after executed => ih (.ok answer) (success answer after executed),
      fun error => ih (.error error) (failure error)⟩

theorem Meets.bind {goal : β → State → Prop}
    {k : α → Call State Statement Error Answer β} {state : State} (first : call.Meets execute rely needs post state)
    (then_ : ∀ result now, post result now → (k result).Meets execute rely needs goal now) :
    (call >>= k).Meets execute rely needs goal state := by
  induction call generalizing state with
  | done result => exact then_ result state (first state .refl)
  | read next ih => exact fun now steps => ih now (first now steps)
  | write statement next ih =>
    intro now steps
    obtain ⟨holds,success,failure⟩ := first now steps
    exact ⟨holds,fun answer after executed => ih (.ok answer) (success answer after executed),
      fun error => ih (.error error) (failure error)⟩

theorem Meets.mono {post goal : α → State → Prop} {state : State}
    (meets : call.Meets execute rely needs post state) (weaker : ∀ result now, post result now → goal result now) :
    call.Meets execute rely needs goal state := by
  induction call generalizing state with
  | done result => exact fun now steps => weaker result now (meets now steps)
  | read next ih => exact fun now steps => ih now (meets now steps)
  | write statement next ih =>
    intro now steps
    obtain ⟨holds,success,failure⟩ := meets now steps
    exact ⟨holds,fun answer after executed => ih (.ok answer) (success answer after executed),
      fun error => ih (.error error) (failure error)⟩

/-- Where the others do less, the call meets the same. -/
theorem Meets.undisturbed {state : State}
    {fewer : State → State → Prop} (meets : call.Meets execute rely needs post state)
    (among : ∀ a b, fewer a b → rely a b) : call.Meets execute fewer needs post state := by
  have more : ∀ {a b}, ReflTransGen fewer a b → ReflTransGen rely a b := fun steps => ReflTransGen.mono among _ _ steps
  induction call generalizing state with
  | done result => exact fun now steps => meets now (more steps)
  | read next ih => exact fun now steps => ih now (meets now (more steps))
  | write statement next ih =>
    intro now steps
    obtain ⟨holds,success,failure⟩ := meets now (more steps)
    exact ⟨holds,fun answer after executed => ih (.ok answer) (success answer after executed),
      fun error => ih (.error error) (failure error)⟩

/-- Where nothing is asked of its statements and its result, nothing is left to show. -/
theorem Meets.trivial (call : Call State Statement Error Answer α) (state : State) :
    call.Meets execute rely (fun _ _ => True) (fun _ _ => True) state := by
  induction call generalizing state with
  | done result => exact fun _ _ => True.intro
  | read next ih => exact fun now _ => ih now now
  | write statement next ih => exact fun now _ => ⟨True.intro,fun answer after _ => ih (.ok answer) after,fun error => ih (.error error) now⟩

/-- What the steps of the others and the statements of the call keep holds until it ends. -/
theorem Meets.frame {state : State}
    (meets : call.Meets execute rely needs post state) (kept : State → Prop) (first : kept state)
    (stable : ∀ a b, kept a → rely a b → kept b)
    (own : ∀ statement a answer b, kept a → needs statement a → execute statement a = .ok (answer,b) → kept b) :
    call.Meets execute rely needs (fun result now => post result now ∧ kept now) state := by
  have across : ∀ {a b}, kept a → ReflTransGen rely a b → kept b := by
    intro a b holds steps
    induction steps with
    | refl => exact holds
    | tail _ step ih => exact stable _ _ ih step
  induction call generalizing state with
  | done result => exact fun now steps => ⟨meets now steps,across first steps⟩
  | read next ih => exact fun now steps => ih now (meets now steps) (across first steps)
  | write statement next ih =>
    intro now steps
    obtain ⟨holds,success,failure⟩ := meets now steps
    have here := across first steps
    exact ⟨holds,fun answer after executed => ih (.ok answer) (success answer after executed)
      (own statement now answer after here holds executed),fun error => ih (.error error) (failure error) here⟩

/-- A call that keeps to statements whose precondition always holds. -/
theorem Within.meets {post : α → Prop}
    (within : call.Within (fun _ => True) (fun statement _ => ∀ now, needs statement now) post) (state : State) :
    call.Meets execute rely needs (fun result _ => post result) state := by
  induction call generalizing state with
  | done result => exact fun _ _ => within
  | read next ih => exact fun now _ => ih now (within now True.intro) now
  | write statement next ih =>
    intro now _
    exact ⟨within.1 now,fun answer after _ => ih (.ok answer) (within.2 (.ok answer)) after,
      fun error => ih (.error error) (within.2 (.error error)) now⟩
end

end Call

/-! ### Calls that can fail -/

/-- A call that ends with a value or with an error. -/
abbrev Fallible (State Statement Error : Type) (Answer : Statement → Type) :=
  ExceptT Error (Call State Statement Error Answer)

/-- One read of the state. -/
def query (f : State → Except Error α) : Fallible State Statement Error Answer α :=
  ExceptT.mk (.read (fun state => .done (f state)))

/-- One statement. -/
def submit (statement : Statement) : Fallible State Statement Error Answer (Answer statement) :=
  ExceptT.mk (.write statement .done)

/-- An outcome that needs no step. -/
def settle (outcome : Except Error α) : Fallible State Statement Error Answer α :=
  ExceptT.mk (.done outcome)

/-- The outcome of a call, whether it failed or not. -/
def attempt (call : Fallible State Statement Error Answer α) : Fallible State Statement Error Answer (Except Error α) :=
  ExceptT.mk (call.run >>= fun outcome => .done (.ok outcome))

/-- A value goes on to `k`, an error ends the call. -/
def proceed (outcome : Except Error α) (k : α → Call State Statement Error Answer (Except Error β)) :
    Call State Statement Error Answer (Except Error β) :=
  match outcome with
  | .ok value => k value
  | .error error => .done (.error error)

/-- A postcondition of the value; nothing is said about an error. -/
def OnSuccess (post : α → State → Prop) : Except Error α → State → Prop
  | .ok value, state => post value state
  | .error _, _ => True

@[simp] theorem run_query (f : State → Except Error α) :
    (query f : Fallible State Statement Error Answer α).run = .read (fun state => .done (f state)) := rfl

@[simp] theorem run_submit (statement : Statement) :
    (submit statement : Fallible State Statement Error Answer _).run = .write statement .done := rfl

@[simp] theorem run_attempt (call : Fallible State Statement Error Answer α) :
    (attempt call).run = (call.run >>= fun outcome => .done (.ok outcome)) := rfl

/-- Every statement that the call comes to execute is `allowed`, and a value it
    returns satisfies `post`, where every state it reads satisfies `fact`. -/
def Keeps (fact : State → Prop) (allowed : Statement → Prop) (call : Fallible State Statement Error Answer α)
    (post : α → Prop) : Prop :=
  call.run.Within fact (fun statement _ => allowed statement) fun outcome => ∀ value, outcome = .ok value → post value

section
variable {fact : State → Prop} {allowed : Statement → Prop}

@[simp] theorem keeps_bind {call : Fallible State Statement Error Answer α}
    {k : α → Fallible State Statement Error Answer β} {post : β → Prop} :
    Keeps fact allowed (call >>= k) post ↔ Keeps fact allowed call fun value => Keeps fact allowed (k value) post := by
  have each : ∀ outcome : Except Error α, (ExceptT.bindCont k outcome).Within fact (fun statement _ => allowed statement)
      (fun result => ∀ value, result = .ok value → post value) ↔
        ∀ value, outcome = .ok value → Keeps fact allowed (k value) post := by
    intro outcome
    cases outcome with
    | ok value => exact ⟨fun within other same => by cases same; exact within,fun all => all value rfl⟩
    | error error => exact ⟨fun _ _ same => (nomatch same),fun _ _ same => (nomatch same)⟩
  rw [Keeps,Keeps,show (call >>= k).run = call.run >>= ExceptT.bindCont k from rfl,Call.within_bind]
  simp only [each]

variable {post : α → Prop} {f : State → Except Error α} {statement : Statement}

@[simp] theorem keeps_pure {value : α} :
    Keeps fact allowed (pure value : Fallible State Statement Error Answer α) post ↔ post value :=
  ⟨fun all => all value rfl,fun holds _ same => by cases same; exact holds⟩

@[simp] theorem keeps_map {call : Fallible State Statement Error Answer α} {f : α → β} {post : β → Prop} :
    Keeps fact allowed (f <$> call) post ↔ Keeps fact allowed call fun value => post (f value) := by
  rw [map_eq_pure_bind,keeps_bind]
  simp only [keeps_pure]

@[simp] theorem keeps_query :
    Keeps fact allowed (query f : Fallible State Statement Error Answer α) post ↔
      ∀ state, fact state → ∀ value, f state = .ok value → post value := Iff.rfl

@[simp] theorem keeps_submit {post : Answer statement → Prop} :
    Keeps fact allowed (submit statement : Fallible State Statement Error Answer _) post ↔
      allowed statement ∧ ∀ answer, post answer :=
  and_congr_right fun _ => ⟨fun all answer => all (.ok answer) answer rfl,fun all _ answer _ => all answer⟩

@[simp] theorem keeps_settle {outcome : Except Error α} :
    Keeps fact allowed (settle outcome : Fallible State Statement Error Answer α) post ↔
      ∀ value, outcome = .ok value → post value := Iff.rfl

@[simp] theorem keeps_throw {error : Error} :
    Keeps fact allowed (throw error : Fallible State Statement Error Answer α) post :=
  fun _ same => (nomatch same)

@[simp] theorem keeps_ite {condition : Prop} [Decidable condition] {a b : Fallible State Statement Error Answer α}
    {post : α → Prop} : Keeps fact allowed (if condition then a else b) post ↔
      (condition → Keeps fact allowed a post) ∧ (¬ condition → Keeps fact allowed b post) := by
  by_cases holds : condition <;> simp [holds]

theorem keeps_mono {call : Fallible State Statement Error Answer α} {goal : α → Prop}
    (keeps : Keeps fact allowed call post) (weaker : ∀ value, post value → goal value) :
    Keeps fact allowed call goal :=
  keeps.mono (fun _ _ holds => holds) fun _ holds value same => weaker value (holds value same)

theorem keeps_forM {list : List α} {f : α → Fallible State Statement Error Answer PUnit}
    (each : ∀ a, Keeps fact allowed (f a) fun _ => True) : Keeps fact allowed (list.forM f) fun _ => True := by
  induction list with
  | nil => simp
  | cons first rest ih =>
    change Keeps fact allowed (f first >>= fun _ => rest.forM f) _
    exact keeps_bind.mpr (keeps_mono (each first) fun _ _ => ih)

theorem keeps_attempt {call : Fallible State Statement Error Answer α} {post : Except Error α → Prop}
    (keeps : Keeps fact allowed call fun _ => True) (any : ∀ outcome, post outcome) :
    Keeps fact allowed (attempt call) post := by
  rw [Keeps,run_attempt,Call.within_bind]
  exact keeps.mono (fun _ _ holds => holds) fun outcome _ value _ => any value

@[simp] theorem keeps_attempt_query {post : Except Error α → Prop} :
    Keeps fact allowed (attempt (query f) : Fallible State Statement Error Answer _) post ↔
      ∀ state, fact state → post (f state) :=
  forall_congr' fun _ => imp_congr_right fun _ => ⟨fun all => all _ rfl,fun holds _ same => by cases same; exact holds⟩

@[simp] theorem keeps_attempt_submit {post : Except Error (Answer statement) → Prop} :
    Keeps fact allowed (attempt (submit statement) : Fallible State Statement Error Answer _) post ↔
      allowed statement ∧ ∀ answer, post answer :=
  and_congr_right fun _ => forall_congr' fun _ =>
    ⟨fun all => all _ rfl,fun holds _ same => by cases same; exact holds⟩
end

/-! The bodies of calls, step by step. -/

section
variable (k : α → Fallible State Statement Error Answer β)

@[simp] theorem query_bind (f : State → Except Error α) :
    (query f >>= k).run = .read (fun state => proceed (f state) fun value => (k value).run) := by
  rw [ExceptT.run_bind,run_query,Call.read_bind]
  refine congrArg Call.read (funext fun state => ?_)
  cases f state <;> rfl

@[simp] theorem submit_bind (statement : Statement) (k : Answer statement → Fallible State Statement Error Answer β) :
    (submit statement >>= k).run = .write statement (fun answer => proceed answer fun value => (k value).run) := by
  rw [ExceptT.run_bind,run_submit,Call.write_bind]
  refine congrArg (Call.write statement) (funext fun answer => ?_)
  cases answer <;> rfl

@[simp] theorem settle_bind (outcome : Except Error α) :
    (settle outcome >>= k).run = proceed outcome fun value => (k value).run := by
  cases outcome <;> rfl

@[simp] theorem attempt_query_bind (f : State → Except Error α) (k : Except Error α → Fallible State Statement Error Answer β) :
    (attempt (query f) >>= k).run = .read (fun state => (k (f state)).run) := rfl

@[simp] theorem attempt_submit_bind (statement : Statement)
    (k : Except Error (Answer statement) → Fallible State Statement Error Answer β) :
    (attempt (submit statement) >>= k).run = .write statement (fun answer => (k answer).run) := rfl

@[simp] theorem proceed_ok (value : α) (k : α → Call State Statement Error Answer (Except Error β)) :
    proceed (.ok value) k = k value := rfl

@[simp] theorem proceed_error (error : Error) (k : α → Call State Statement Error Answer (Except Error β)) :
    proceed (.error error) k = .done (.error error) := rfl
end

namespace Call

variable {exec : (statement : Statement) → State → Except Error (Answer statement × State)}
  {rely : State → State → Prop} {needs : Statement → State → Prop}

variable {call : Fallible State Statement Error Answer α} {k : α → Fallible State Statement Error Answer β}
variable {post : Except Error β → State → Prop} {state : State}

theorem run_then_ok {state after : State} {value : α} (first : call.run.run exec state = (.ok value,after)) :
    (call >>= k).run.run exec state = (k value).run.run exec after := by
  rw [ExceptT.run_bind,run_bind,first]

theorem run_then_error {state after : State} {error : Error}
    (first : call.run.run exec state = (.error error,after)) : (call >>= k).run.run exec state = (.error error,after) := by
  rw [ExceptT.run_bind,run_bind,first]
  rfl

theorem Within.proceed {fact : State → Prop} {post : Except Error β → Prop}
    {allowed : (statement : Statement) →
      (Except Error (Answer statement) → Call State Statement Error Answer (Except Error β)) → Prop}
    {outcome : Except Error α} {k : α → Call State Statement Error Answer (Except Error β)}
    (failed : ∀ error, post (.error error))
    (value : ∀ value, outcome = .ok value → (k value).Within fact allowed post) :
    (proceed outcome k).Within fact allowed post := by
  cases outcome with
  | ok result => exact value result rfl
  | error error => exact failed error

/-- A value goes on, and of an error nothing is asked. -/
theorem Meets.proceed {outcome : Except Error α}
    {k : α → Call State Statement Error Answer (Except Error β)} (failed : ∀ error now, post (.error error) now)
    (value : ∀ value, outcome = .ok value → (k value).Meets exec rely needs post state) :
    (proceed outcome k).Meets exec rely needs post state := by
  cases outcome with
  | ok result => exact value result rfl
  | error error => exact fun now _ => failed error now

theorem Meets.andThen {post : α → State → Prop} {goal : Except Error β → State → Prop}
    (first : call.run.Meets exec rely needs (OnSuccess post) state)
    (failed : ∀ error now, goal (.error error) now)
    (then_ : ∀ value now, post value now → (k value).run.Meets exec rely needs goal now) :
    (call >>= k).run.Meets exec rely needs goal state := by
  rw [ExceptT.run_bind]
  refine first.bind fun outcome now holds => ?_
  cases outcome with
  | ok value => exact then_ value now holds
  | error error => exact fun last _ => failed error last

theorem Meets.afterQuery {f : State → Except Error α}
    (failed : ∀ error now, post (.error error) now)
    (then_ : ∀ seen value, ReflTransGen rely state seen → f seen = .ok value →
      (k value).run.Meets exec rely needs post seen) :
    (query f >>= k).run.Meets exec rely needs post state := by
  rw [query_bind]
  exact fun seen steps => .proceed failed fun value found => then_ seen value steps found

theorem Meets.afterSettle {outcome : Except Error α}
    (failed : ∀ error now, post (.error error) now)
    (then_ : ∀ value, outcome = .ok value → (k value).run.Meets exec rely needs post state) :
    (settle outcome >>= k).run.Meets exec rely needs post state := by
  rw [settle_bind]
  exact .proceed failed then_

theorem Meets.afterSubmit {statement : Statement}
    {k : Answer statement → Fallible State Statement Error Answer β}
    (failed : ∀ error now, post (.error error) now)
    (allowed : ∀ now, ReflTransGen rely state now → needs statement now)
    (then_ : ∀ now answer after, ReflTransGen rely state now → exec statement now = .ok (answer,after) →
      (k answer).run.Meets exec rely needs post after) :
    (submit statement >>= k).run.Meets exec rely needs post state := by
  rw [submit_bind]
  exact fun now steps => ⟨allowed now steps,fun answer after executed => then_ now answer after steps executed,
    fun error last _ => failed error last⟩

theorem Meets.afterAttempt {inner : Except Error α → State → Prop}
    {k : Except Error α → Fallible State Statement Error Answer β}
    (first : call.run.Meets exec rely needs inner state)
    (then_ : ∀ outcome now, inner outcome now → (k outcome).run.Meets exec rely needs post now) :
    (attempt call >>= k).run.Meets exec rely needs post state := by
  rw [ExceptT.run_bind,run_attempt,bind_assoc]
  exact first.bind fun outcome now holds => then_ outcome now holds

/-! The same where something is asked of an error too: a fact that the others keep. -/

section
variable {kept : State → Prop} {post : Except Error β → State → Prop} {state : State}
  (stable : ∀ a b, kept a → ReflTransGen rely a b → kept b) (first : kept state)
  (failed : ∀ error now, kept now → post (.error error) now)
include stable first failed

theorem Meets.afterQuery_kept {f : State → Except Error α}
    (then_ : ∀ seen value, kept seen → f seen = .ok value → (k value).run.Meets exec rely needs post seen) :
    (query f >>= k).run.Meets exec rely needs post state := by
  rw [query_bind]
  intro seen steps
  have there := stable _ _ first steps
  show (Interleaving.proceed (f seen) fun value => (k value).run).Meets exec rely needs post seen
  cases found : f seen with
  | ok value => exact then_ seen value there found
  | error error => exact fun now more => failed error now (stable _ _ there more)

theorem Meets.afterSettle_kept {outcome : Except Error α}
    (then_ : ∀ value, outcome = .ok value → (k value).run.Meets exec rely needs post state) :
    (settle outcome >>= k).run.Meets exec rely needs post state := by
  rw [settle_bind]
  cases outcome with
  | ok value => exact then_ value rfl
  | error error => exact fun now steps => failed error now (stable _ _ first steps)

theorem Meets.afterSubmit_kept {statement : Statement}
    {k : Answer statement → Fallible State Statement Error Answer β}
    (allowed : ∀ now, kept now → needs statement now)
    (then_ : ∀ now answer after, kept now → exec statement now = .ok (answer,after) →
      (k answer).run.Meets exec rely needs post after) :
    (submit statement >>= k).run.Meets exec rely needs post state := by
  rw [submit_bind]
  intro now steps
  have here := stable _ _ first steps
  exact ⟨allowed now here,fun answer after executed => then_ now answer after here executed,
    fun error last more => failed error last (stable _ _ here more)⟩
end

theorem Meets.submit {statement : Statement} {post : Except Error (Answer statement) → State → Prop} {state : State}
    (allowed : ∀ now, ReflTransGen rely state now → needs statement now)
    (success : ∀ now answer after last, ReflTransGen rely state now → exec statement now = .ok (answer,after) →
      ReflTransGen rely after last → post (.ok answer) last)
    (failure : ∀ error now, post (.error error) now) :
    (submit statement : Fallible State Statement Error Answer _).run.Meets exec rely needs post state :=
  fun now steps => ⟨allowed now steps,
    fun answer after executed last more => success now answer after last steps executed more,
    fun error last _ => failure error last⟩

end Call

end

/-! ### Runs of many calls -/

section
variable {Request State Statement Error Reply : Type} {Answer : Statement → Type}

/-- A call that has begun and not ended: what was requested, how many events the
    log had then, and what is left to do. -/
structure Running (Request State Statement Error : Type) (Answer : Statement → Type) (Reply : Type) where
  request : Request
  since : Nat
  code : Call State Statement Error Answer Reply

/-- One step of one call: the statement that took effect, if any, the state
    before and after it, and the reply if the call ended with this step. -/
structure Event (Request State Statement Reply : Type) where
  request : Request
  since : Nat
  did : Option Statement
  before : State
  after : State
  reply : Option Reply

structure Config (Request State Statement Error : Type) (Answer : Statement → Type) (Reply : Type) where
  state : State
  pool : List (Running Request State Statement Error Answer Reply)
  log : List (Event Request State Statement Reply)

/-- The atomic steps of a call. `busy` is the error of a statement that the
    engine refuses on its own account. -/
inductive Performs (exec : (statement : Statement) → State → Except Error (Answer statement × State)) (busy : Error) :
    Call State Statement Error Answer Reply → State → Option Statement → State →
      Call State Statement Error Answer Reply → Prop
  | answer (result : Reply) (state : State) : Performs exec busy (.done result) state none state (.done result)
  | read (next : State → Call State Statement Error Answer Reply) (state : State) :
    Performs exec busy (.read next) state none state (next state)
  | commit (statement : Statement) (next : Except Error (Answer statement) → Call State Statement Error Answer Reply)
      (state : State) (answer : Answer statement) (after : State)
      (executed : exec statement state = .ok (answer,after)) :
    Performs exec busy (.write statement next) state (some statement) after (next (.ok answer))
  | fail (statement : Statement) (next : Except Error (Answer statement) → Call State Statement Error Answer Reply)
      (state : State) (error : Error) (failed : exec statement state = .error error) :
    Performs exec busy (.write statement next) state none state (next (.error error))
  | refuse (statement : Statement) (next : Except Error (Answer statement) → Call State Statement Error Answer Reply)
      (state : State) :
    Performs exec busy (.write statement next) state none state (next (.error busy))

section
variable {exec : (statement : Statement) → State → Except Error (Answer statement × State)} {busy : Error}
  {state after : State} {did : Option Statement} {rest : Call State Statement Error Answer Reply}

theorem Performs.of_read {next : State → Call State Statement Error Answer Reply}
    (step : Performs exec busy (.read next) state did after rest) : did = none ∧ after = state ∧ rest = next state := by
  cases step
  exact ⟨rfl,rfl,rfl⟩

theorem Performs.of_write {statement : Statement}
    {next : Except Error (Answer statement) → Call State Statement Error Answer Reply}
    (step : Performs exec busy (.write statement next) state did after rest) :
    (∃ answer, did = some statement ∧ exec statement state = .ok (answer,after) ∧ rest = next (.ok answer)) ∨
      (did = none ∧ after = state ∧
        ((∃ error, exec statement state = .error error ∧ rest = next (.error error)) ∨ rest = next (.error busy))) := by
  cases step with
  | commit _ _ _ answer _ executed => exact .inl ⟨answer,rfl,executed,rfl⟩
  | fail _ _ _ error failed => exact .inr ⟨rfl,rfl,.inl ⟨error,failed,rfl⟩⟩
  | refuse => exact .inr ⟨rfl,rfl,.inr rfl⟩

/-- A step with an effect is a statement of the call. -/
theorem Performs.of_did {call : Call State Statement Error Answer Reply} {statement : Statement}
    (step : Performs exec busy call state did after rest) (effect : did = some statement) :
    ∃ next answer, call = .write statement next ∧ exec statement state = .ok (answer,after) ∧
      rest = next (.ok answer) := by
  cases step with
  | commit _ next _ answer _ executed =>
    cases effect
    exact ⟨next,answer,rfl,executed,rfl⟩
  | _ => exact nomatch effect
end

/-- The calls left in the pool after a step of one of them: it stays until it has a result. -/
def remaining (entry : Running Request State Statement Error Answer Reply) :
    List (Running Request State Statement Error Answer Reply) :=
  match entry.code with
  | .done _ => []
  | _ => [entry]

section
variable {pool front back : List (Running Request State Statement Error Answer Reply)}
  {entry other : Running Request State Statement Error Answer Reply}

/-- The pool after a step of a call. -/
theorem of_mem_remaining {rest : Call State Statement Error Answer Reply} (here : pool = front ++ entry :: back)
    (member : other ∈ front ++ remaining { entry with code := rest } ++ back) :
    other ∈ pool ∨ other = { entry with code := rest } ∧ rest.result? = none := by
  simp only [List.mem_append] at member
  rcases member with (member | member) | member
  · exact .inl (by simp [here,member])
  · refine .inr ?_
    cases rest <;> simp [remaining] at member <;> exact ⟨member,rfl⟩
  · exact .inl (by simp [here,member])

/-- The pool after the loss of a call. -/
theorem of_mem_lost (here : pool = front ++ entry :: back) (member : other ∈ front ++ back) : other ∈ pool := by
  rw [here]
  rcases List.mem_append.mp member with member | member
  · exact List.mem_append_left _ member
  · exact List.mem_append_right _ (List.mem_cons_of_mem _ member)
end

/-- A call begins, makes its next step, or is lost. -/
inductive Step (exec : (statement : Statement) → State → Except Error (Answer statement × State)) (busy : Error)
    (code : Request → Call State Statement Error Answer Reply) :
    Config Request State Statement Error Answer Reply → Config Request State Statement Error Answer Reply → Prop
  | start (config : Config Request State Statement Error Answer Reply) (request : Request) :
    Step exec busy code config { config with pool := ⟨request,config.log.length,code request⟩ :: config.pool }
  | perform (config : Config Request State Statement Error Answer Reply)
      (front back : List (Running Request State Statement Error Answer Reply))
      (entry : Running Request State Statement Error Answer Reply) (here : config.pool = front ++ entry :: back)
      (did : Option Statement) (after : State) (rest : Call State Statement Error Answer Reply)
      (step : Performs exec busy entry.code config.state did after rest) :
    Step exec busy code config
      { state := after
        pool := front ++ remaining { entry with code := rest } ++ back
        log := ⟨entry.request,entry.since,did,config.state,after,rest.result?⟩ :: config.log }
  | crash (config : Config Request State Statement Error Answer Reply)
      (front back : List (Running Request State Statement Error Answer Reply))
      (entry : Running Request State Statement Error Answer Reply) (here : config.pool = front ++ entry :: back) :
    Step exec busy code config { config with pool := front ++ back }

/-- The configurations of the runs from `initial`. -/
inductive Reachable (exec : (statement : Statement) → State → Except Error (Answer statement × State)) (busy : Error)
    (code : Request → Call State Statement Error Answer Reply) (initial : State) :
    Config Request State Statement Error Answer Reply → Prop
  | initial : Reachable exec busy code initial ⟨initial,[],[]⟩
  | step {config next : Config Request State Statement Error Answer Reply}
      (reached : Reachable exec busy code initial config) (step : Step exec busy code config next) :
    Reachable exec busy code initial next

/-! ### Schedules -/

/-- A choice of what happens next: a call begins, the call at a place in the pool
    makes its next step, or it makes steps until it has ended. -/
inductive Move (Request : Type)
  | start (request : Request)
  | perform (place : Nat)
  | finish (place : Nat)

/-- The next step of a call where the engine refuses nothing. -/
def advance (exec : (statement : Statement) → State → Except Error (Answer statement × State))
    (call : Call State Statement Error Answer Reply) (state : State) :
    Option Statement × State × Call State Statement Error Answer Reply :=
  match call with
  | .done result => (none,state,.done result)
  | .read next => (none,state,next state)
  | .write statement next =>
    match exec statement state with
    | .ok (answer,after) => (some statement,after,next (.ok answer))
    | .error error => (none,state,next (.error error))

def Config.perform (exec : (statement : Statement) → State → Except Error (Answer statement × State))
    (config : Config Request State Statement Error Answer Reply) (place : Nat) :
    Config Request State Statement Error Answer Reply :=
  match config.pool[place]? with
  | none => config
  | some entry =>
    let step := advance exec entry.code config.state
    { state := step.2.1
      pool := config.pool.take place ++ remaining { entry with code := step.2.2 } ++ config.pool.drop (place + 1)
      log := ⟨entry.request,entry.since,step.1,config.state,step.2.1,step.2.2.result?⟩ :: config.log }

/-- The first call makes so many steps. -/
def Config.steps (exec : (statement : Statement) → State → Except Error (Answer statement × State))
    (config : Config Request State Statement Error Answer Reply) : Nat → Config Request State Statement Error Answer Reply
  | 0 => config
  | steps+1 => (config.steps exec steps).perform exec 0

/-- The calls run one after the other, each for so many steps. -/
def Config.inTurn (exec : (statement : Statement) → State → Except Error (Answer statement × State))
    (code : Request → Call State Statement Error Answer Reply) :
    List (Request × Nat) → Config Request State Statement Error Answer Reply → Config Request State Statement Error Answer Reply
  | [], config => config
  | (request,steps) :: rest, config =>
    Config.inTurn exec code rest
      (Config.steps exec { config with pool := ⟨request,config.log.length,code request⟩ :: config.pool } steps)

/-- Before each of these steps one call is in progress, and the check succeeds. -/
def Config.checked (exec : (statement : Statement) → State → Except Error (Answer statement × State))
    (code : Request → Call State Statement Error Answer Reply)
    (check : Config Request State Statement Error Answer Reply → Bool) :
    List (Request × Nat) → Config Request State Statement Error Answer Reply → Bool
  | [], _ => true
  | (request,steps) :: rest, config =>
    let begun := { config with pool := ⟨request,config.log.length,code request⟩ :: config.pool }
    (List.range steps).all (fun done => (begun.steps exec done).pool.length == 1 && check (begun.steps exec done)) &&
      Config.checked exec code check rest (begun.steps exec steps)

/-- The call at a place makes steps until the pool is no longer so large. -/
def Config.finish (exec : (statement : Statement) → State → Except Error (Answer statement × State)) (place size : Nat) :
    Nat → Config Request State Statement Error Answer Reply → Config Request State Statement Error Answer Reply
  | 0, config => config
  | fuel+1, config =>
    if config.pool.length < size then config else Config.finish exec place size fuel (config.perform exec place)

def Config.move (exec : (statement : Statement) → State → Except Error (Answer statement × State))
    (code : Request → Call State Statement Error Answer Reply)
    (config : Config Request State Statement Error Answer Reply) :
    Move Request → Config Request State Statement Error Answer Reply
  | .start request => { config with pool := ⟨request,config.log.length,code request⟩ :: config.pool }
  | .perform place => config.perform exec place
  | .finish place => Config.finish exec place config.pool.length 100 config

/-- The run of a schedule. -/
def play (exec : (statement : Statement) → State → Except Error (Answer statement × State))
    (code : Request → Call State Statement Error Answer Reply) (initial : State) (moves : List (Move Request)) :
    Config Request State Statement Error Answer Reply :=
  moves.foldl (Config.move exec code) ⟨initial,[],[]⟩

section
variable {exec : (statement : Statement) → State → Except Error (Answer statement × State)} {busy : Error}
  {code : Request → Call State Statement Error Answer Reply} {initial : State}

theorem performs_advance (call : Call State Statement Error Answer Reply) (state : State) :
    Performs exec busy call state (advance exec call state).1 (advance exec call state).2.1 (advance exec call state).2.2 := by
  cases call with
  | done result => exact .answer result state
  | read next => exact .read next state
  | write statement next =>
    cases executed : exec statement state with
    | ok outcome =>
      simp only [advance,executed]
      exact .commit statement next state outcome.1 outcome.2 executed
    | error error =>
      simp only [advance,executed]
      exact .fail statement next state error executed

theorem Reachable.perform {config : Config Request State Statement Error Answer Reply}
    (reached : Reachable exec busy code initial config) (place : Nat) :
    Reachable exec busy code initial (config.perform exec place) := by
  rw [Config.perform]
  cases found : config.pool[place]? with
  | none => exact reached
  | some entry =>
    obtain ⟨bound,same⟩ := List.getElem?_eq_some_iff.mp found
    have here : config.pool = config.pool.take place ++ entry :: config.pool.drop (place + 1) := by
      rw [← same,← List.drop_eq_getElem_cons bound,List.take_append_drop]
    exact reached.step (.perform config _ _ entry here _ _ _ (performs_advance entry.code config.state))

theorem Reachable.finish {config : Config Request State Statement Error Answer Reply}
    (reached : Reachable exec busy code initial config) (place size fuel : Nat) :
    Reachable exec busy code initial (Config.finish exec place size fuel config) := by
  induction fuel generalizing config with
  | zero => exact reached
  | succ fuel ih =>
    rw [Config.finish]
    split
    · exact reached
    · exact ih (reached.perform place)

/-- What a schedule leads to is reached. -/
theorem Reachable.play (moves : List (Move Request)) :
    Reachable exec busy code initial (Interleaving.play exec code initial moves) := by
  have each : ∀ (moves : List (Move Request)) (config : Config Request State Statement Error Answer Reply),
      Reachable exec busy code initial config →
        Reachable exec busy code initial (moves.foldl (Config.move exec code) config) := by
    intro moves
    induction moves with
    | nil => exact fun _ reached => reached
    | cons move rest ih =>
      intro config reached
      refine ih _ ?_
      cases move with
      | start request => exact reached.step (.start config request)
      | perform place => exact reached.perform place
      | finish place => exact reached.finish place _ _
  exact each moves _ .initial
end

/-! ### What holds of every run -/

/-- Each event begins in the state in which the one before it ended. -/
def Linked (initial : State) : List (Event Request State Statement Reply) → State → Prop
  | [], state => state = initial
  | event :: older, state => state = event.after ∧ Linked initial older event.before

/-- A property of every event of a log, given the events before it. -/
def Throughout (P : List (Event Request State Statement Reply) → Event Request State Statement Reply → Prop) :
    List (Event Request State Statement Reply) → Prop
  | [] => True
  | event :: older => P older event ∧ Throughout P older

variable {P Q : List (Event Request State Statement Reply) → Event Request State Statement Reply → Prop}

theorem Throughout.mono (weaker : ∀ older event, P older event → Q older event) :
    ∀ {log : List (Event Request State Statement Reply)}, Throughout P log → Throughout Q log
  | [], _ => trivial
  | _ :: _, ⟨here,before⟩ => ⟨weaker _ _ here,Throughout.mono weaker before⟩

theorem Throughout.and :
    ∀ {log : List (Event Request State Statement Reply)}, Throughout P log → Throughout Q log →
      Throughout (fun older event => P older event ∧ Q older event) log
  | [], _, _ => trivial
  | _ :: _, ⟨p,ps⟩, ⟨q,qs⟩ => ⟨⟨p,q⟩,Throughout.and ps qs⟩

variable {log newer older : List (Event Request State Statement Reply)} {initial : State}
  {event : Event Request State Statement Reply}

/-- The events of a log at any place in it. -/
theorem throughout_iff :
    Throughout P log ↔ ∀ newer event older, log = newer ++ event :: older → P older event := by
  induction log with
  | nil => simp [Throughout]
  | cons first rest ih =>
    simp only [Throughout,ih]
    constructor
    · rintro ⟨here,before⟩ newer event older same
      cases newer with
      | nil => cases same; exact here
      | cons _ newer => cases same; exact before newer event older rfl
    · intro all
      exact ⟨all [] first rest rfl,fun newer event older same => all (first :: newer) event older (by simp [same])⟩

theorem Throughout.all {P : Event Request State Statement Reply → Prop} :
    ∀ {log : List (Event Request State Statement Reply)}, Throughout (fun _ event => P event) log → ∀ event ∈ log, P event
  | _ :: _, ⟨here,before⟩, event, member => by
    rcases List.mem_cons.mp member with rfl | earlier
    · exact here
    · exact Throughout.all before event earlier

/-- The log before an event leads to the state in which it began. -/
theorem Linked.until {state : State}
    (linked : Linked initial (newer ++ event :: older) state) :
    Linked initial older event.before := by
  induction newer generalizing state with
  | nil => exact linked.2
  | cons last rest ih => exact ih linked.2

/-- Induction along a log: what holds at first and is kept by each event holds at the end. -/
theorem Linked.induction {Φ : List (Event Request State Statement Reply) → State → Prop} {state : State}
    (linked : Linked initial log state)
    (all : Throughout P log) (first : Φ [] initial)
    (step : ∀ older event, Φ older event.before → P older event → Φ (event :: older) event.after ∧ Q older event) :
    Φ log state ∧ Throughout Q log := by
  induction log generalizing state with
  | nil => exact ⟨linked ▸ first,trivial⟩
  | cons event older ih =>
    obtain ⟨rfl,linked⟩ := linked
    obtain ⟨before,events⟩ := ih linked all.2
    obtain ⟨after,here⟩ := step older event before all.1
    exact ⟨after,here,events⟩

/-- The steps from the end of one event to the end of the log. -/
theorem Linked.across {R : State → State → Prop} {state : State}
    (linked : Linked initial (newer ++ event :: older) state)
    (steps : ∀ seen ∈ newer, R seen.before seen.after) : ReflTransGen R event.after state := by
  induction newer generalizing state with
  | nil => exact linked.1 ▸ .refl
  | cons last rest ih =>
    obtain ⟨rfl,linked⟩ := linked
    have earlier := ih linked fun seen member => steps seen (List.mem_cons_of_mem _ member)
    exact earlier.tail (steps last List.mem_cons_self)

/-- The events of other calls and of its own that a call saw since it began. -/
def during (older : List (Event Request State Statement Reply)) (event : Event Request State Statement Reply) :
    List (Event Request State Statement Reply) :=
  older.take (older.length - event.since)

section
variable {exec : (statement : Statement) → State → Except Error (Answer statement × State)} {busy : Error}
  {code : Request → Call State Statement Error Answer Reply} {initial : State}

/-- An event changes the state only by a statement that the engine executed. -/
def Committed (exec : (statement : Statement) → State → Except Error (Answer statement × State))
    (event : Event Request State Statement Reply) : Prop :=
  match event.did with
  | none => event.after = event.before
  | some statement => ∃ answer, exec statement event.before = .ok (answer,event.after)

variable {config : Config Request State Statement Error Answer Reply}
variable {call rest : Call State Statement Error Answer Reply} {did : Option Statement}

theorem Reachable.linked
    (reached : Reachable exec busy code initial config) : Linked initial config.log config.state := by
  induction reached with
  | initial => rfl
  | step _ step ih =>
    cases step with
    | start => exact ih
    | perform => exact ⟨rfl,ih⟩
    | crash => exact ih

theorem Performs.committed {state after : State}
    (step : Performs exec busy call state did after rest) (request : Request) (since : Nat) :
    Committed exec ⟨request,since,did,state,after,rest.result?⟩ := by
  cases step with
  | commit statement _ _ answer _ executed => exact ⟨answer,executed⟩
  | _ => rfl

theorem Reachable.committed (reached : Reachable exec busy code initial config) :
    Throughout (fun _ event => Committed exec event) config.log := by
  induction reached with
  | initial => trivial
  | step _ step ih =>
    cases step with
    | start => exact ih
    | perform front back entry here did after rest step => exact ⟨step.committed _ _,ih⟩
    | crash => exact ih

theorem Reachable.since_le
    (reached : Reachable exec busy code initial config) : ∀ entry ∈ config.pool, entry.since ≤ config.log.length := by
  induction reached with
  | initial => simp
  | step _ step ih =>
    cases step with
    | start =>
      intro entry member
      rcases List.mem_cons.mp member with rfl | member
      · exact Nat.le_refl _
      · exact ih entry member
    | perform front back entry here did after rest step =>
      intro other member
      rcases of_mem_remaining here member with old | ⟨rfl,_⟩
      · exact Nat.le_succ_of_le (ih other old)
      · exact Nat.le_succ_of_le (ih entry (by simp [here]))
    | crash front back entry here =>
      exact fun other member => ih other (of_mem_lost here member)

variable {rely : State → State → Prop} {needs : Statement → State → Prop} {post : Reply → State → Prop}
  {faults : Statement → Error → Prop} {counts : Reply → Prop}

/-- One step of a call that meets its obligations: the statement it executed
    was allowed, what is left meets them still, and its reply is as promised. -/
theorem Performs.meets {state after : State}
    (step : Performs exec busy call state did after rest) (meets : call.Meets exec rely needs post state) :
    (∀ statement, did = some statement → needs statement state) ∧ rest.Meets exec rely needs post after := by
  cases step with
  | answer result => exact ⟨fun _ none => (nomatch none),meets⟩
  | read next => exact ⟨fun _ none => (nomatch none),meets state .refl⟩
  | commit statement next _ answer after executed =>
    obtain ⟨allowed,success,_⟩ := meets state .refl
    exact ⟨fun _ same => by cases same; exact allowed,success answer after executed⟩
  | fail statement next _ error =>
    obtain ⟨_,_,failure⟩ := meets state .refl
    exact ⟨fun _ none => (nomatch none),failure error⟩
  | refuse statement next =>
    obtain ⟨_,_,failure⟩ := meets state .refl
    exact ⟨fun _ none => (nomatch none),failure busy⟩

theorem Call.Meets.reply
    {call : Call State Statement Error Answer Reply} {state : State} (meets : call.Meets exec rely needs post state)
    {reply : Reply} (ended : call.result? = some reply) : post reply state := by
  cases call with
  | done result => cases ended; exact meets state .refl
  | read next => cases ended
  | write statement next => cases ended

/-- The rule of rely and guarantee. Where every state satisfies `fact`, a call
    that meets its obligations against the steps of `rely` keeps them in every
    run for as long as all events since it began are such steps. -/
theorem Reachable.scoped (fact : State → Prop) (rely : State → State → Prop) (needs : Request → Statement → State → Prop)
    (post : Request → Reply → State → Prop)
    (reached : Reachable exec busy code initial config) (first : fact initial)
    (facts : Throughout (fun _ event => fact event.after) config.log)
    (starts : ∀ request state, fact state → (code request).Meets exec rely (needs request) (post request) state) :
    (∀ entry ∈ config.pool, (∀ event ∈ config.log.take (config.log.length - entry.since), rely event.before event.after) →
        entry.code.Meets exec rely (needs entry.request) (post entry.request) config.state) ∧
      Throughout (fun older event => (∀ seen ∈ during older event, rely seen.before seen.after) →
        (∀ statement, event.did = some statement → needs event.request statement event.before) ∧
        ∀ reply, event.reply = some reply → post event.request reply event.after)
        config.log := by
  induction reached with
  | initial => exact ⟨by simp,trivial⟩
  | @step config next reached step ih =>
    cases step with
    | start request =>
      obtain ⟨pool,log⟩ := ih facts
      refine ⟨?_,log⟩
      intro entry member
      rcases List.mem_cons.mp member with rfl | member
      · intro _
        refine starts request _ ?_
        have linked := reached.linked
        cases events : config.log with
        | nil => rw [events] at linked; exact linked ▸ first
        | cons event older =>
          rw [events] at linked
          have here : fact event.after := by simpa [Throughout,events] using (events ▸ facts).1
          exact linked.1 ▸ here
      · exact pool entry member
    | perform front back entry here did after rest step =>
      obtain ⟨pool,log⟩ := ih facts.2
      have begun := reached.since_le
      have own : ∀ (_ : ∀ seen ∈ config.log.take (config.log.length - entry.since), rely seen.before seen.after),
          (∀ statement, did = some statement → needs entry.request statement config.state) ∧
            rest.Meets exec rely (needs entry.request) (post entry.request) after :=
        fun steps => step.meets (pool entry (by simp [here]) steps)
      have others : ∀ other ∈ config.pool, other.since ≤ config.log.length →
          (∀ event ∈ (⟨entry.request,entry.since,did,config.state,after,rest.result?⟩ :: config.log).take
            (config.log.length + 1 - other.since), rely event.before event.after) →
          rely config.state after ∧
            ∀ seen ∈ config.log.take (config.log.length - other.since), rely seen.before seen.after := by
        intro other _ bound steps
        rw [Nat.succ_sub bound,List.take_succ_cons] at steps
        exact ⟨steps _ List.mem_cons_self,fun seen member => steps seen (List.mem_cons_of_mem _ member)⟩
      refine ⟨?_,?_,log⟩
      · intro other member steps
        rcases of_mem_remaining here member with present | ⟨rfl,_⟩
        · obtain ⟨last,earlier⟩ := others other present (begun other present) steps
          exact (pool other present earlier).later (.single last)
        · have present : entry ∈ config.pool := by simp [here]
          exact (own (others entry present (begun entry present) steps).2).2
      · intro steps
        obtain ⟨allowed,left⟩ := own steps
        exact ⟨allowed,fun reply ended => left.reply ended⟩
    | crash front back entry here =>
      obtain ⟨pool,log⟩ := ih facts
      exact ⟨fun other member => pool other (of_mem_lost here member),log⟩

/-- A statement that was executed is one that the call is allowed, and the event
    has its reply where nothing is left to do after it. -/
def Answered (exec : (statement : Statement) → State → Except Error (Answer statement × State))
    (allowed : Request → (statement : Statement) →
      (Except Error (Answer statement) → Call State Statement Error Answer Reply) → Prop)
    (event : Event Request State Statement Reply) : Prop :=
  ∀ statement, event.did = some statement → ∃ next answer, allowed event.request statement next ∧
    exec statement event.before = .ok (answer,event.after) ∧ event.reply = (next (.ok answer)).result?

/-- One step of a call that keeps within its bounds. -/
theorem Performs.within {fact : State → Prop} {post : Reply → Prop}
    {allowed : (statement : Statement) → (Except Error (Answer statement) → Call State Statement Error Answer Reply) → Prop}
    {state after : State}
    (step : Performs exec busy call state did after rest) (holds : fact state) (within : call.Within fact allowed post) :
    rest.Within fact allowed post ∧ ∀ statement, did = some statement → ∃ next answer, allowed statement next ∧
      exec statement state = .ok (answer,after) ∧ rest.result? = (next (.ok answer)).result? := by
  cases step with
  | answer result => exact ⟨within,nofun⟩
  | read next => exact ⟨within state holds,nofun⟩
  | commit statement next _ answer after executed =>
    refine ⟨within.2 (.ok answer),?_⟩
    rintro _ ⟨⟩
    exact ⟨next,answer,within.1,executed,rfl⟩
  | fail statement next _ error => exact ⟨within.2 (.error error),nofun⟩
  | refuse statement next => exact ⟨within.2 (.error busy),nofun⟩

/-- What every allowed statement keeps is an invariant of every run, and every
    call keeps within its bounds. `assumed` is what is known of the statements of
    this run. -/
theorem Reachable.invariant (fact : State → Prop) (assumed : Statement → State → Prop)
    (allowed : Request → (statement : Statement) →
      (Except Error (Answer statement) → Call State Statement Error Answer Reply) → Prop)
    (post : Request → Reply → Prop) (reached : Reachable exec busy code initial config)
    (given : Throughout (fun _ event => ∀ statement, event.did = some statement → assumed statement event.before)
      config.log)
    (first : fact initial) (starts : ∀ request, (code request).Within fact (allowed request) (post request))
    (keeps : ∀ request statement next state answer after, fact state → allowed request statement next →
      assumed statement state → exec statement state = .ok (answer,after) → fact after) :
    fact config.state ∧ (∀ entry ∈ config.pool, entry.code.Within fact (allowed entry.request) (post entry.request)) ∧
      Throughout (fun _ event => fact event.before ∧ fact event.after ∧ Answered exec allowed event ∧
        ∀ reply, event.reply = some reply → post event.request reply) config.log := by
  induction reached with
  | initial => exact ⟨first,by simp,trivial⟩
  | @step config next reached step ih =>
    cases step with
    | start request =>
      obtain ⟨now,pool,log⟩ := ih given
      refine ⟨now,?_,log⟩
      intro entry member
      rcases List.mem_cons.mp member with rfl | member
      · exact starts request
      · exact pool entry member
    | perform front back entry here did after rest step =>
      obtain ⟨now,pool,log⟩ := ih given.2
      obtain ⟨within,answered⟩ := step.within now (pool entry (by simp [here]))
      have kept : fact after := by
        have committed := step.committed entry.request entry.since
        cases did with
        | none => exact (show after = config.state from committed) ▸ now
        | some statement =>
          obtain ⟨next,answer,fits,executed,_⟩ := answered statement rfl
          exact keeps entry.request statement next _ answer after now fits (given.1 statement rfl) executed
      refine ⟨kept,?_,⟨now,kept,answered,?_⟩,log⟩
      · intro other member
        rcases of_mem_remaining here member with old | ⟨rfl,_⟩
        · exact pool other old
        · exact within
      · intro reply ended
        obtain rfl := Call.of_result? ended
        exact within
    | crash front back entry here =>
      obtain ⟨now,pool,log⟩ := ih given
      exact ⟨now,fun other member => pool other (of_mem_lost here member),log⟩

/-- The rule of rely and guarantee with an invariant. Where a statement, executed
    where its precondition holds, keeps the invariant and is a step of `rely`,
    every call meets its obligations in every run. -/
theorem Reachable.guarded (fact : State → Prop) (rely : State → State → Prop) (needs : Request → Statement → State → Prop)
    (post : Request → Reply → State → Prop)
    (reached : Reachable exec busy code initial config) (first : fact initial) (still : ∀ state, rely state state)
    (starts : ∀ request state, fact state → (code request).Meets exec rely (needs request) (post request) state)
    (keeps : ∀ request statement state answer after, fact state → needs request statement state →
      exec statement state = .ok (answer,after) → fact after ∧ rely state after) :
    fact config.state ∧ Throughout (fun _ event => fact event.before ∧ fact event.after ∧ rely event.before event.after ∧
      (∀ statement, event.did = some statement → needs event.request statement event.before) ∧
      ∀ reply, event.reply = some reply → post event.request reply event.after) config.log := by
  induction reached with
  | initial => exact ⟨first,trivial⟩
  | @step config next reached step ih =>
    obtain ⟨now,log⟩ := ih
    cases step with
    | start => exact ⟨now,log⟩
    | crash => exact ⟨now,log⟩
    | perform front back entry here did after rest step =>
      obtain ⟨pool,_⟩ := reached.scoped fact rely needs post first (log.mono fun _ _ holds => holds.2.1) starts
      have meets := pool entry (by simp [here]) fun seen member => (log.all seen (List.mem_of_mem_take member)).2.2.1
      obtain ⟨allowed,left⟩ := step.meets meets
      have kept : fact after ∧ rely config.state after := by
        have committed := step.committed entry.request entry.since
        cases did with
        | none =>
          have same : after = config.state := committed
          rw [same]
          exact ⟨now,still _⟩
        | some statement =>
          obtain ⟨answer,executed⟩ := committed
          exact keeps entry.request statement _ answer after now (allowed statement rfl) executed
      exact ⟨kept.1,⟨now,kept.1,kept.2,allowed,fun reply ended => left.reply ended⟩,log⟩

/-- A result that counts comes at once with a statement that earns it. A statement
    fails only with an error that is among its `faults`. -/
def Call.Earns (faults : Statement → Error → Prop) (earns : Statement → Prop) (counts : Reply → Prop) :
    Call State Statement Error Answer Reply → Prop
  | .done result => ¬ counts result
  | .read next => ∀ state, (next state).Earns faults earns counts
  | .write statement next => (∀ error, faults statement error → (next (.error error)).Earns faults earns counts) ∧
      ∀ answer, (earns statement ∧ ∃ result, next (.ok answer) = .done result) ∨ (next (.ok answer)).Earns faults earns counts

theorem Performs.earns {earns : Statement → Prop}
    {state after : State}
    (step : Performs exec busy call state did after rest) (refused : ∀ statement, faults statement busy)
    (failed : ∀ statement state error, exec statement state = .error error → faults statement error)
    (earned : call.Earns faults earns counts) :
    (∃ statement, did = some statement ∧ earns statement ∧ ∃ result, rest = .done result) ∨
      rest.Earns faults earns counts := by
  cases step with
  | answer => exact .inr earned
  | read next => exact .inr (earned state)
  | commit statement next _ answer =>
    rcases earned.2 answer with ⟨here,ended⟩ | later
    · exact .inl ⟨statement,rfl,here,ended⟩
    · exact .inr later
  | fail statement next _ error executed => exact .inr (earned.1 error (failed statement _ error executed))
  | refuse statement next => exact .inr (earned.1 busy (refused statement))

/-- Every reply that counts came with the event that earned it. -/
theorem Reachable.earned (faults : Statement → Error → Prop) (earns : Request → Statement → Prop)
    (counts : Request → Reply → Prop)
    (reached : Reachable exec busy code initial config) (refused : ∀ statement, faults statement busy)
    (failed : ∀ statement state error, exec statement state = .error error → faults statement error)
    (starts : ∀ request, (code request).Earns faults (earns request) (counts request)) :
    (∀ entry ∈ config.pool, entry.code.Earns faults (earns entry.request) (counts entry.request)) ∧
      Throughout (fun _ event => ∀ reply, event.reply = some reply → counts event.request reply →
        ∃ statement, event.did = some statement ∧ earns event.request statement) config.log := by
  induction reached with
  | initial => exact ⟨by simp,trivial⟩
  | @step config next reached step ih =>
    obtain ⟨pool,log⟩ := ih
    cases step with
    | start request =>
      refine ⟨fun entry member => ?_,log⟩
      rcases List.mem_cons.mp member with rfl | member
      · exact starts request
      · exact pool entry member
    | perform front back entry here did after rest step =>
      have earned := step.earns refused failed (pool entry (by simp [here]))
      refine ⟨fun other member => ?_,fun reply ended counted => ?_,log⟩
      · rcases of_mem_remaining here member with old | ⟨rfl,left⟩
        · exact pool other old
        · rcases earned with ⟨_,_,_,result,rfl⟩ | earned
          · cases left
          · exact earned
      · rcases earned with ⟨statement,did,here,_⟩ | earned
        · exact ⟨statement,did,here⟩
        · obtain rfl := Call.of_result? ended
          exact absurd counted earned
    | crash front back entry here =>
      exact ⟨fun other member => pool other (of_mem_lost here member),log⟩

/-- Where no result counts, none has to be earned. -/
theorem Call.earns_never {earns : Statement → Prop}
    (never : ∀ result, ¬ counts result) (call : Call State Statement Error Answer Reply) : call.Earns faults earns counts := by
  induction call with
  | done result => exact never result
  | read next ih => exact ih
  | write statement next ih => exact ⟨fun error _ => ih (.error error),fun answer => .inr (ih (.ok answer))⟩

section
variable {Success Value : Type} {faults : Statement → Error → Prop} {earns : Statement → Prop}
  {counts : Except Error Value → Prop} {k : Success → Fallible State Statement Error Answer Value}

section
variable (failed : ∀ error, ¬ counts (.error error))
include failed

/-- A value goes on, and an error does not count. -/
theorem Call.Earns.proceed {outcome : Except Error Success} {k : Success → Call State Statement Error Answer (Except Error Value)}
    (value : ∀ value, outcome = .ok value → (k value).Earns faults earns counts) :
    (Interleaving.proceed outcome k).Earns faults earns counts := by
  cases outcome with
  | ok result => exact value result rfl
  | error error => exact failed error

theorem Call.Earns.afterQuery {f : State → Except Error Success}
    (then_ : ∀ value, (k value).run.Earns faults earns counts) : (query f >>= k).run.Earns faults earns counts := by
  rw [query_bind]
  exact fun state => .proceed failed fun value _ => then_ value

theorem Call.Earns.afterSettle {outcome : Except Error Success}
    (then_ : ∀ value, (k value).run.Earns faults earns counts) : (settle outcome >>= k).run.Earns faults earns counts := by
  rw [settle_bind]
  exact .proceed failed fun value _ => then_ value

/-- The statement is the last step of a call that counts. -/
theorem Call.Earns.lastSubmit {statement : Statement} {k : Answer statement → Value}
    (earned : earns statement) :
    (submit statement >>= fun answer => (pure (k answer) : Fallible State Statement Error Answer Value)).run.Earns
      faults earns counts := by
  rw [submit_bind]
  exact ⟨fun error _ => failed error,fun answer => .inl ⟨earned,_,rfl⟩⟩
end

theorem Call.Earns.afterSubmit {statement : Statement} {k : Answer statement → Fallible State Statement Error Answer Value}
    (failed : ∀ error, ¬ counts (.error error)) (then_ : ∀ answer, (k answer).run.Earns faults earns counts) :
    (submit statement >>= k).run.Earns faults earns counts := by
  rw [submit_bind]
  exact ⟨fun error _ => failed error,fun answer => .inr (then_ answer)⟩
end

/-! ### Runs that meet a condition -/

/-- The runs in which every step of a call finds a configuration that `may` asks
    for. Calls begin, and are lost, at any time. -/
inductive Restricted (exec : (statement : Statement) → State → Except Error (Answer statement × State)) (busy : Error)
    (code : Request → Call State Statement Error Answer Reply) (initial : State)
    (may : Config Request State Statement Error Answer Reply → Running Request State Statement Error Answer Reply → Prop) :
    Config Request State Statement Error Answer Reply → Prop
  | initial : Restricted exec busy code initial may ⟨initial,[],[]⟩
  | start {config : Config Request State Statement Error Answer Reply}
      (restricted : Restricted exec busy code initial may config) (request : Request) :
    Restricted exec busy code initial may
      { config with pool := ⟨request,config.log.length,code request⟩ :: config.pool }
  | perform {config : Config Request State Statement Error Answer Reply}
      (restricted : Restricted exec busy code initial may config)
      (front back : List (Running Request State Statement Error Answer Reply))
      (entry : Running Request State Statement Error Answer Reply) (here : config.pool = front ++ entry :: back)
      (did : Option Statement) (after : State) (rest : Call State Statement Error Answer Reply)
      (step : Performs exec busy entry.code config.state did after rest) (allowed : may config entry) :
    Restricted exec busy code initial may
      { state := after
        pool := front ++ remaining { entry with code := rest } ++ back
        log := ⟨entry.request,entry.since,did,config.state,after,rest.result?⟩ :: config.log }
  | crash {config : Config Request State Statement Error Answer Reply}
      (restricted : Restricted exec busy code initial may config)
      (front back : List (Running Request State Statement Error Answer Reply))
      (entry : Running Request State Statement Error Answer Reply) (here : config.pool = front ++ entry :: back) :
    Restricted exec busy code initial may { config with pool := front ++ back }

section
variable {may : Config Request State Statement Error Answer Reply → Running Request State Statement Error Answer Reply → Prop}

variable {config : Config Request State Statement Error Answer Reply}

theorem Restricted.reachable
    (restricted : Restricted exec busy code initial may config) : Reachable exec busy code initial config := by
  induction restricted with
  | initial => exact .initial
  | start _ request ih => exact ih.step (.start _ request)
  | perform _ front back entry here did after rest step _ ih =>
    exact ih.step (.perform _ front back entry here did after rest step)
  | crash _ front back entry here ih => exact ih.step (.crash _ front back entry here)

/-- The only call in progress makes its next step. -/
theorem Restricted.perform_only (restricted : Restricted exec busy code initial may config)
    (entry : Running Request State Statement Error Answer Reply) (alone : config.pool = [entry])
    (allowed : may config entry) : Restricted exec busy code initial may (config.perform exec 0) := by
  have next := restricted.perform [] [] entry alone _ _ _ (performs_advance entry.code config.state) allowed
  rw [Config.perform,alone]
  exact next

/-- Calls that run one after the other, where a check at each step shows that it is allowed. -/
theorem Restricted.inTurn {check : Config Request State Statement Error Answer Reply → Bool}
    (sound : ∀ config entry, Restricted exec busy code initial may config → check config = true → config.pool = [entry] →
      may config entry)
    (requests : List (Request × Nat))
    (restricted : Restricted exec busy code initial may config) (passes : config.checked exec code check requests = true) :
    Restricted exec busy code initial may (config.inTurn exec code requests) := by
  induction requests generalizing config with
  | nil => exact restricted
  | cons first rest ih =>
    obtain ⟨request,steps⟩ := first
    simp only [Config.checked,Bool.and_eq_true,List.all_eq_true,List.mem_range,beq_iff_eq] at passes
    have each : ∀ done ≤ steps, Restricted exec busy code initial may
        (Config.steps exec { config with pool := ⟨request,config.log.length,code request⟩ :: config.pool } done) := by
      intro done within
      induction done with
      | zero => exact restricted.start request
      | succ done before =>
        have earlier := before (Nat.le_of_succ_le within)
        obtain ⟨single,checked⟩ := passes.1 done within
        obtain ⟨entry,alone⟩ := List.length_eq_one_iff.mp single
        exact earlier.perform_only entry alone (sound _ entry earlier checked alone)
    exact ih (each steps (Nat.le_refl steps)) passes.2

/-- A fact about the log and the state, what is known of the calls in progress
    and what is known of the events are shown together, from one step of one call. -/
theorem Restricted.induction (Φ : List (Event Request State Statement Reply) → State → Prop)
    (Standing : List (Event Request State Statement Reply) → Running Request State Statement Error Answer Reply → Prop)
    (Seen : List (Event Request State Statement Reply) → Event Request State Statement Reply → Prop)
    (restricted : Restricted exec busy code initial may config) (first : Φ [] initial)
    (begins : ∀ log request, Standing log ⟨request,log.length,code request⟩)
    (later : ∀ log event entry, Standing log entry → Standing (event :: log) entry)
    (step : ∀ (config : Config Request State Statement Error Answer Reply) entry event rest,
      Φ config.log config.state → Standing config.log entry → may config entry →
      event.request = entry.request → event.since = entry.since → event.before = config.state →
      event.reply = rest.result? → Performs exec busy entry.code event.before event.did event.after rest →
        Φ (event :: config.log) event.after ∧
          (rest.result? = none → Standing (event :: config.log) { entry with code := rest }) ∧ Seen config.log event) :
    Φ config.log config.state ∧ (∀ entry ∈ config.pool, Standing config.log entry) ∧ Throughout Seen config.log := by
  induction restricted with
  | initial => exact ⟨first,by simp,trivial⟩
  | start _ request ih =>
    obtain ⟨holds,pool,log⟩ := ih
    refine ⟨holds,fun entry member => ?_,log⟩
    rcases List.mem_cons.mp member with rfl | member
    · exact begins _ request
    · exact pool entry member
  | @perform config _ front back entry here did after rest performed allowed ih =>
    obtain ⟨holds,pool,log⟩ := ih
    have own := pool entry (by simp [here])
    obtain ⟨now,left,seen⟩ := step config entry ⟨entry.request,entry.since,did,config.state,after,rest.result?⟩ rest
      holds own allowed rfl rfl rfl rfl performed
    refine ⟨now,fun other member => ?_,seen,log⟩
    rcases of_mem_remaining here member with old | ⟨rfl,going⟩
    · exact later _ _ other (pool other old)
    · exact left going
  | crash _ front back entry here ih =>
    obtain ⟨holds,pool,log⟩ := ih
    exact ⟨holds,fun other member => pool other (of_mem_lost here member),log⟩
end

/-! ### Facts that every call notices -/

/-- The fact holds, and every call in progress, where it only reads states in which
    it holds, comes to execute nothing but what is `allowed`. -/
structure Quiet (fact : State → Prop) (allowed : Statement → Prop)
    (config : Config Request State Statement Error Answer Reply) : Prop where
  holds : fact config.state
  pool : ∀ entry ∈ config.pool, entry.code.Within fact (fun statement _ => allowed statement) fun _ => True

section
variable {fact : State → Prop} {allowed : Statement → Prop} {config : Config Request State Statement Error Answer Reply}

theorem Quiet.start (quiet : Quiet fact allowed config) {request : Request}
    (begins : (code request).Within fact (fun statement _ => allowed statement) fun _ => True) :
    Quiet fact allowed { config with pool := ⟨request,config.log.length,code request⟩ :: config.pool } := by
  refine ⟨quiet.holds,fun entry member => ?_⟩
  rcases List.mem_cons.mp member with rfl | member
  · exact begins
  · exact quiet.pool entry member

variable {front back : List (Running Request State Statement Error Answer Reply)}
variable {entry : Running Request State Statement Error Answer Reply}

theorem Quiet.crash (quiet : Quiet fact allowed config)
    (here : config.pool = front ++ entry :: back) :
    Quiet fact allowed { config with pool := front ++ back } := by
  exact ⟨quiet.holds,fun other member => quiet.pool other (of_mem_lost here member)⟩

/-- A fact that the allowed statements keep stays noticed, and nothing else is executed. -/
theorem Quiet.perform (quiet : Quiet fact allowed config)
    (stable : ∀ statement state answer after, fact state → allowed statement →
      exec statement state = .ok (answer,after) → fact after)
    (here : config.pool = front ++ entry :: back)
    {did : Option Statement} {after : State} {rest : Call State Statement Error Answer Reply}
    (step : Performs exec busy entry.code config.state did after rest)
    (log : List (Event Request State Statement Reply)) :
    Quiet fact allowed ⟨after,front ++ remaining { entry with code := rest } ++ back,log⟩ ∧
      ∀ statement, did = some statement → allowed statement := by
  have own := step.within quiet.holds (quiet.pool entry (by simp [here]))
  refine ⟨⟨?_,fun other member => ?_⟩,fun statement same => ?_⟩
  · cases did with
    | none =>
      have same : after = config.state := step.committed entry.request entry.since
      exact same ▸ quiet.holds
    | some statement =>
      obtain ⟨next,answer,permitted,executed,_⟩ := own.2 statement rfl
      exact stable statement _ answer after quiet.holds permitted executed
  · rcases of_mem_remaining here member with old | ⟨rfl,_⟩
    · exact quiet.pool other old
    · exact own.1
  · obtain ⟨next,answer,permitted,_⟩ := own.2 statement same
    exact permitted

/-- A step after which the fact holds, where every call had noticed it before. -/
theorem Quiet.begin
    (pool : ∀ other ∈ front ++ back, other.code.Within fact (fun statement _ => allowed statement) fun _ => True)
    {after : State} (holds : fact after) {rest : Call State Statement Error Answer Reply}
    (own : rest.Within fact (fun statement _ => allowed statement) fun _ => True)
    {log : List (Event Request State Statement Reply)} :
    Quiet fact allowed ⟨after,front ++ remaining { entry with code := rest } ++ back,log⟩ := by
  refine ⟨holds,fun other member => ?_⟩
  simp only [List.mem_append] at member
  rcases member with (member | member) | member
  · exact pool other (List.mem_append_left _ member)
  · have same : other = { entry with code := rest } := by
      cases rest <;> simp [remaining] at member <;> exact member
    exact same ▸ own
  · exact pool other (List.mem_append_right _ member)
end

end

end

end Proofstorm.Interleaving

/-! ### Calls that run alone -/

namespace Proofstorm.Interleaving.Call

section
variable {State Statement Error : Type} {Answer : Statement → Type} {α β : Type}

variable (exec : (statement : Statement) → State → Except Error (Answer statement × State))

/-- The call, run with no other step between its own, ends with a value. -/
def Alone (call : Fallible State Statement Error Answer α) (state : State) (value : α) (after : State) : Prop :=
  call.run.run exec state = (.ok value,after)

variable {exec} {state after : State}

@[simp] theorem alone_bind {call : Fallible State Statement Error Answer α}
    {k : α → Fallible State Statement Error Answer β} {value : β} :
    Alone exec (call >>= k) state value after ↔
      ∃ middle between, Alone exec call state middle between ∧ Alone exec (k middle) between value after := by
  constructor
  · intro ended
    cases first : call.run.run exec state with
    | mk outcome between =>
      cases outcome with
      | ok middle => exact ⟨middle,between,first,(run_then_ok first).symm.trans ended⟩
      | error error => cases (run_then_error first).symm.trans ended
  · rintro ⟨middle,between,first,last⟩
    exact (run_then_ok first).trans last

variable {value : α} {f : State → Except Error α}

@[simp] theorem alone_pure {result : α} :
    Alone exec (pure value : Fallible State Statement Error Answer α) state result after ↔ value = result ∧ state = after := by
  change ((Except.ok value : Except Error α),state) = (.ok result,after) ↔ _
  simp

@[simp] theorem alone_query :
    Alone exec (query f : Fallible State Statement Error Answer α) state value after ↔ f state = .ok value ∧ state = after := by
  change (f state,state) = (.ok value,after) ↔ _
  simp

@[simp] theorem alone_settle {outcome : Except Error α} :
    Alone exec (settle outcome : Fallible State Statement Error Answer α) state value after ↔
      outcome = .ok value ∧ state = after := by
  change (outcome,state) = (.ok value,after) ↔ _
  simp

@[simp] theorem alone_attempt_query {outcome : Except Error α} :
    Alone exec (attempt (query f) : Fallible State Statement Error Answer _) state outcome after ↔
      f state = outcome ∧ state = after := by
  change ((Except.ok (f state) : Except Error (Except Error α)),state) = (.ok outcome,after) ↔ _
  simp

@[simp] theorem alone_submit {statement : Statement} {answer : Answer statement} :
    Alone exec (submit statement : Fallible State Statement Error Answer _) state answer after ↔
      exec statement state = .ok (answer,after) := by
  rw [Alone,run_submit,run]
  cases executed : exec statement state with
  | ok outcome =>
    obtain ⟨_,_⟩ := outcome
    simp [run]
  | error error => simp [run]

@[simp] theorem alone_ite {condition : Prop} [Decidable condition] {a b : Fallible State Statement Error Answer α} {value : α} :
    Alone exec (if condition then a else b) state value after ↔
      if condition then Alone exec a state value after else Alone exec b state value after := by
  split <;> rfl
end

end Proofstorm.Interleaving.Call
