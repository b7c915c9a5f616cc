import Proofstorm.Interleaving

/-!
Rely and guarantee in runs that meet a condition. What a call keeps to where the
condition holds at each of its steps (`Call.Upholds`), it keeps to in every such
run (`Restricted.upheld`). `rely` is an order: what the others may make of a
state, however often.
-/
namespace Proofstorm.Interleaving

section
variable {Request State Statement Error Reply : Type} {Answer : Statement → Type}
  {exec : (statement : Statement) → State → Except Error (Answer statement × State)} {busy : Error}
  {rely : State → State → Prop} {needs : Statement → State → Prop}

/-- Whatever steps of `rely` the others make between those of the call, and where
    each of its own steps finds what `may` says, the call executes a statement only
    where its precondition holds. -/
def Call.Upholds (exec : (statement : Statement) → State → Except Error (Answer statement × State))
    (may : Call State Statement Error Answer Reply → State → Prop) (rely : State → State → Prop)
    (needs : Statement → State → Prop) : Call State Statement Error Answer Reply → State → Prop
  | .done _, _ => True
  | .read next, state => ∀ now, rely state now → may (.read next) now → (next now).Upholds exec may rely needs now
  | .write statement next, state => ∀ now, rely state now → may (.write statement next) now → needs statement now ∧
      (∀ answer after, exec statement now = .ok (answer,after) → rely now after →
        (next (.ok answer)).Upholds exec may rely needs after) ∧
      ∀ error, (next (.error error)).Upholds exec may rely needs now

section
variable {may : Call State Statement Error Answer Reply → State → Prop}

theorem Call.Upholds.later (trans : ∀ a b c, rely a b → rely b c → rely a c)
    {call : Call State Statement Error Answer Reply} {state now : State}
    (upholds : call.Upholds exec may rely needs state) (step : rely state now) : call.Upholds exec may rely needs now := by
  cases call with
  | done result => trivial
  | read next => exact fun last more => upholds last (trans _ _ _ step more)
  | write statement next => exact fun last more => upholds last (trans _ _ _ step more)

theorem Call.Upholds.mono {fewer : Call State Statement Error Answer Reply → State → Prop}
    {call : Call State Statement Error Answer Reply} {state : State} (upholds : call.Upholds exec may rely needs state)
    (among : ∀ call state, fewer call state → may call state) : call.Upholds exec fewer rely needs state := by
  induction call generalizing state with
  | done result => trivial
  | read next ih => exact fun now steps holds => ih now (upholds now steps (among _ _ holds))
  | write statement next ih =>
    intro now steps holds
    obtain ⟨given,success,failure⟩ := upholds now steps (among _ _ holds)
    exact ⟨given,fun answer after executed moved => ih (.ok answer) (success answer after executed moved),
      fun error => ih (.error error) (failure error)⟩

/-- A call that keeps within bounds that suffice. -/
theorem Call.Within.upholds {fact : State → Prop} {allowed : Statement → Prop} {post : Reply → Prop}
    {call : Call State Statement Error Answer Reply} (within : call.Within fact (fun statement _ => allowed statement) post)
    (shows : ∀ call state, may call state → fact state)
    (suffices_ : ∀ statement state, fact state → allowed statement → needs statement state) (state : State) :
    call.Upholds exec may rely needs state := by
  induction call generalizing state with
  | done result => trivial
  | read next ih => exact fun now _ holds => ih now (within now (shows _ _ holds)) now
  | write statement next ih =>
    exact fun now _ holds => ⟨suffices_ statement now (shows _ _ holds) within.1,
      fun answer after _ _ => ih (.ok answer) (within.2 _) after,fun error => ih (.error error) (within.2 _) now⟩

/-- One step of a call that upholds its part. -/
theorem Performs.upholds {call rest : Call State Statement Error Answer Reply} {state after : State} {did : Option Statement}
    (step : Performs exec busy call state did after rest) (refl : rely state state) (allowed : may call state)
    (upholds : call.Upholds exec may rely needs state)
    (moves : ∀ statement, did = some statement → needs statement state → rely state after) :
    (∀ statement, did = some statement → needs statement state) ∧ rest.Upholds exec may rely needs after := by
  cases step with
  | answer result => exact ⟨nofun,trivial⟩
  | read next => exact ⟨nofun,upholds state refl allowed⟩
  | commit statement next _ answer after executed =>
    obtain ⟨holds,success,_⟩ := upholds state refl allowed
    refine ⟨?_,success answer after executed (moves statement rfl holds)⟩
    rintro _ ⟨⟩
    exact holds
  | fail statement next _ error => exact ⟨nofun,(upholds state refl allowed).2.2 error⟩
  | refuse statement next => exact ⟨nofun,(upholds state refl allowed).2.2 busy⟩
end

section
variable {Value Success : Type} {may : Call State Statement Error Answer (Except Error Value) → State → Prop} {state : State}

theorem Call.Upholds.proceed {outcome : Except Error Success}
    {k : Success → Call State Statement Error Answer (Except Error Value)}
    (value : ∀ value, outcome = .ok value → (k value).Upholds exec may rely needs state) :
    (Interleaving.proceed outcome k).Upholds exec may rely needs state := by
  cases outcome with
  | ok result => exact value result rfl
  | error error => trivial

variable {k : Success → Fallible State Statement Error Answer Value}

theorem Call.Upholds.afterQuery {f : State → Except Error Success}
    (then_ : ∀ seen value, rely state seen → may (query f >>= k).run seen → f seen = .ok value →
      (k value).run.Upholds exec may rely needs seen) : (query f >>= k).run.Upholds exec may rely needs state := by
  rw [query_bind] at then_ ⊢
  exact fun seen steps holds => .proceed fun value found => then_ seen value steps holds found

theorem Call.Upholds.afterSettle {outcome : Except Error Success}
    (then_ : ∀ value, outcome = .ok value → (k value).run.Upholds exec may rely needs state) :
    (settle outcome >>= k).run.Upholds exec may rely needs state := by
  rw [settle_bind]
  exact .proceed then_

theorem Call.Upholds.afterSubmit {statement : Statement}
    {k : Answer statement → Fallible State Statement Error Answer Value}
    (allowed : ∀ now, rely state now → may (submit statement >>= k).run now → needs statement now)
    (then_ : ∀ now answer after, rely state now → may (submit statement >>= k).run now →
      exec statement now = .ok (answer,after) → rely now after → (k answer).run.Upholds exec may rely needs after) :
    (submit statement >>= k).run.Upholds exec may rely needs state := by
  rw [submit_bind] at allowed then_ ⊢
  exact fun now steps holds => ⟨allowed now steps holds,
    fun answer after executed moved => then_ now answer after steps holds executed moved,fun error => trivial⟩

/-- A first part that keeps within bounds that suffice, where what it knows of the
    states it reads is kept by the others. -/
theorem Keeps.upholds {fact kept : State → Prop} {allowed : Statement → Prop} {post : Success → Prop}
    {call : Fallible State Statement Error Answer Success}
    (keeps : Keeps kept allowed call post) (stays : ∀ a b, kept a → rely a b → kept b)
    (suffices_ : ∀ statement state, fact state → kept state → allowed statement → needs statement state)
    (then_ : ∀ value state, kept state → post value → (k value).run.Upholds exec (fun _ state => fact state) rely needs state)
    (holds : kept state) : (call >>= k).run.Upholds exec (fun _ state => fact state) rely needs state := by
  rw [ExceptT.run_bind]
  rw [Keeps] at keeps
  generalize call.run = steps at keeps
  induction steps generalizing state with
  | done result =>
    cases result with
    | ok value => exact then_ value state holds (keeps value rfl)
    | error error => trivial
  | read next ih =>
    intro now steps _
    have knows := stays _ _ holds steps
    exact ih now knows (keeps now knows)
  | write statement next ih =>
    intro now steps found
    have knows := stays _ _ holds steps
    exact ⟨suffices_ statement now found knows keeps.1,
      fun answer after _ moved => ih (.ok answer) (stays _ _ knows moved) (keeps.2 _),
      fun error => ih (.error error) knows (keeps.2 _)⟩

end

variable {code : Request → Call State Statement Error Answer Reply} {initial : State}

variable
  {may : Config Request State Statement Error Answer Reply → Running Request State Statement Error Answer Reply → Prop}

/-- Where a statement, executed where its precondition holds, keeps the invariant
    and is a step of `rely`, every call upholds its part in every run that meets
    the condition. -/
theorem Restricted.upheld (fact : State → Prop) (cond : Call State Statement Error Answer Reply → State → Prop)
    (needs : Request → Statement → State → Prop) {config : Config Request State Statement Error Answer Reply}
    (restricted : Restricted exec busy code initial may config)
    (implied : ∀ config entry, may config entry → cond entry.code config.state) (first : fact initial)
    (refl : ∀ state, rely state state) (trans : ∀ a b c, rely a b → rely b c → rely a c)
    (starts : ∀ request state, fact state →
      (code request).Upholds exec (fun call state => fact state ∧ cond call state) rely (needs request) state)
    (keeps : ∀ request statement state answer after, fact state → needs request statement state →
      exec statement state = .ok (answer,after) → fact after ∧ rely state after) :
    fact config.state ∧ (∀ entry ∈ config.pool,
        entry.code.Upholds exec (fun call state => fact state ∧ cond call state) rely (needs entry.request) config.state) ∧
      ∀ event ∈ config.log, fact event.before ∧ fact event.after ∧ rely event.before event.after ∧
        rely event.after config.state ∧ ∀ statement, event.did = some statement → needs event.request statement event.before := by
  induction restricted with
  | initial => exact ⟨first,by simp,by simp⟩
  | @start config _ request ih =>
    obtain ⟨holds,pool,log⟩ := ih
    refine ⟨holds,fun entry member => ?_,log⟩
    rcases List.mem_cons.mp member with rfl | member
    · exact starts request _ holds
    · exact pool entry member
  | @perform config restricted front back entry here did after rest step allowed ih =>
    obtain ⟨holds,pool,log⟩ := ih
    have committed := step.committed entry.request entry.since
    have moves : ∀ statement, did = some statement → needs entry.request statement config.state →
        fact after ∧ rely config.state after := by
      rintro statement rfl given
      obtain ⟨answer,executed⟩ := committed
      exact keeps entry.request statement _ answer after holds given executed
    obtain ⟨given,left⟩ := step.upholds (refl _) ⟨holds,implied config entry allowed⟩ (pool entry (by simp [here]))
      fun statement did given => (moves statement did given).2
    have now : fact after ∧ rely config.state after := by
      cases did with
      | none =>
        have same : after = config.state := committed
        rw [same]
        exact ⟨holds,refl _⟩
      | some statement => exact moves statement rfl (given statement rfl)
    have still : ∀ other ∈ config.pool, other.code.Upholds exec (fun call state => fact state ∧ cond call state) rely
        (needs other.request) after := fun other there => (pool other there).later trans now.2
    refine ⟨now.1,fun other member => ?_,fun event member => ?_⟩
    · rcases of_mem_remaining here member with old | ⟨rfl,_⟩
      · exact still other old
      · exact left
    · rcases List.mem_cons.mp member with rfl | member
      · exact ⟨holds,now.1,now.2,refl _,given⟩
      · obtain ⟨before,past,moved,since,did⟩ := log event member
        exact ⟨before,past,moved,trans _ _ _ since now.2,did⟩
  | crash _ front back entry here ih =>
    obtain ⟨holds,pool,log⟩ := ih
    exact ⟨holds,fun other member => pool other (of_mem_lost here member),log⟩

/-- A condition that always holds restricts no run. -/
theorem Reachable.restricted
    {config : Config Request State Statement Error Answer Reply} (reached : Reachable exec busy code initial config)
    (always : ∀ config entry, may config entry) : Restricted exec busy code initial may config := by
  induction reached with
  | initial => exact .initial
  | step _ step ih =>
    cases step with
    | start request => exact ih.start request
    | perform front back entry here did after rest step => exact ih.perform front back entry here did after rest step (always _ _)
    | crash front back entry here => exact ih.crash front back entry here
end

end Proofstorm.Interleaving
