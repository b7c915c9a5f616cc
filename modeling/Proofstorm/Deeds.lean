import Proofstorm.Interleaving

/-!
What a call has done itself, in the calls of `Interleaving`. A statement may ask
that the call has done something before: has read a state with some property, or
has executed a statement with some answer (`Call.Grounded`). In every run it has
then done so, in an earlier event of its own (`Reachable.grounded`); and where
each use of a right asks for a grant of its own, the right is used at most as
often as it is granted, by all the calls together (`Reachable.used_le`).
-/
namespace Proofstorm.Interleaving

section
variable {Request State Statement Error Reply α β : Type} {Answer : Statement → Type}

/-- One step of a call: a read of a state, a statement with its answer, or a
    statement that failed. -/
inductive Deed (State Statement : Type) (Answer : Statement → Type)
  | read (state : State)
  | did (statement : Statement) (answer : Answer statement)
  | failed (statement : Statement)

/-- Whatever happens, the call comes to execute a statement, and to end with a
    result, only after deeds, newest first, that allow it. -/
def Call.Grounded (allowed : List (Deed State Statement Answer) → Statement → Prop)
    (post : List (Deed State Statement Answer) → α → Prop) :
    Call State Statement Error Answer α → List (Deed State Statement Answer) → Prop
  | .done result, deeds => post deeds result
  | .read next, deeds => ∀ state, (next state).Grounded allowed post (.read state :: deeds)
  | .write statement next, deeds => allowed deeds statement ∧
      (∀ answer, (next (.ok answer)).Grounded allowed post (.did statement answer :: deeds)) ∧
      ∀ error, (next (.error error)).Grounded allowed post (.failed statement :: deeds)

/-! ### Rules -/

section
variable {allowed : List (Deed State Statement Answer) → Statement → Prop}
  {deeds : List (Deed State Statement Answer)}

variable {post : List (Deed State Statement Answer) → α → Prop}

theorem Call.Grounded.bind
    {goal : List (Deed State Statement Answer) → β → Prop} {call : Call State Statement Error Answer α}
    {k : α → Call State Statement Error Answer β} (first : call.Grounded allowed post deeds)
    (then_ : ∀ now result, post now result → (k result).Grounded allowed goal now) :
    (call >>= k).Grounded allowed goal deeds := by
  induction call generalizing deeds with
  | done result => exact then_ deeds result first
  | read next ih => exact fun state => ih state (first state)
  | write statement next ih =>
    obtain ⟨may,success,failure⟩ := first
    exact ⟨may,fun answer => ih (.ok answer) (success answer),fun error => ih (.error error) (failure error)⟩

theorem Call.Grounded.allows {may : List (Deed State Statement Answer) → Statement → Prop}
    {call : Call State Statement Error Answer α}
    (grounded : call.Grounded allowed post deeds) (weaker : ∀ now statement, allowed now statement → may now statement) :
    call.Grounded may post deeds := by
  induction call generalizing deeds with
  | done result => exact grounded
  | read next ih => exact fun state => ih state (grounded state)
  | write statement next ih =>
    obtain ⟨holds,success,failure⟩ := grounded
    exact ⟨weaker deeds statement holds,fun answer => ih (.ok answer) (success answer),
      fun error => ih (.error error) (failure error)⟩

theorem Call.Grounded.mono {goal : List (Deed State Statement Answer) → α → Prop}
    {call : Call State Statement Error Answer α} (grounded : call.Grounded allowed post deeds)
    (weaker : ∀ now result, post now result → goal now result) : call.Grounded allowed goal deeds := by
  induction call generalizing deeds with
  | done result => exact weaker deeds result grounded
  | read next ih => exact fun state => ih state (grounded state)
  | write statement next ih =>
    obtain ⟨may,success,failure⟩ := grounded
    exact ⟨may,fun answer => ih (.ok answer) (success answer),fun error => ih (.error error) (failure error)⟩

section
variable {post : List (Deed State Statement Answer) → Except Error β → Prop}

theorem Call.Grounded.proceed {outcome : Except Error α} {k : α → Call State Statement Error Answer (Except Error β)}
    (failed : ∀ error, post deeds (.error error))
    (value : ∀ value, outcome = .ok value → (k value).Grounded allowed post deeds) :
    (Interleaving.proceed outcome k).Grounded allowed post deeds := by
  cases outcome with
  | ok result => exact value result rfl
  | error error => exact failed error

variable {k : α → Fallible State Statement Error Answer β}
  {first : List (Deed State Statement Answer) → Except Error α → Prop}

theorem Call.Grounded.afterQuery {f : State → Except Error α}
    (failed : ∀ state error, post (.read state :: deeds) (.error error))
    (then_ : ∀ state value, f state = .ok value → (k value).run.Grounded allowed post (.read state :: deeds)) :
    (query f >>= k).run.Grounded allowed post deeds := by
  rw [query_bind]
  exact fun state => .proceed (failed state) (then_ state)

theorem Call.Grounded.afterSettle {outcome : Except Error α}
    (failed : ∀ error, post deeds (.error error))
    (then_ : ∀ value, outcome = .ok value → (k value).run.Grounded allowed post deeds) :
    (settle outcome >>= k).run.Grounded allowed post deeds := by
  rw [settle_bind]
  exact .proceed failed then_

theorem Call.Grounded.afterSubmit {statement : Statement} {k : Answer statement → Fallible State Statement Error Answer β}
    (failed : ∀ error, post (.failed statement :: deeds) (.error error)) (may : allowed deeds statement)
    (then_ : ∀ answer, (k answer).run.Grounded allowed post (.did statement answer :: deeds)) :
    (submit statement >>= k).run.Grounded allowed post deeds := by
  rw [submit_bind]
  exact ⟨may,then_,failed⟩

/-- The first call and then the rest. -/
theorem Call.Grounded.andThen {call : Fallible State Statement Error Answer α}
    (grounded : call.run.Grounded allowed first deeds)
    (failed : ∀ now error, first now (.error error) → post now (.error error))
    (then_ : ∀ now value, first now (.ok value) → (k value).run.Grounded allowed post now) :
    (call >>= k).run.Grounded allowed post deeds := by
  rw [ExceptT.run_bind]
  refine grounded.bind fun now outcome holds => ?_
  cases outcome with
  | ok value => exact then_ now value holds
  | error error => exact failed now error holds

theorem Call.Grounded.afterAttempt
    {call : Fallible State Statement Error Answer α} {k : Except Error α → Fallible State Statement Error Answer β}
    (grounded : call.run.Grounded allowed first deeds)
    (then_ : ∀ now outcome, first now outcome → (k outcome).run.Grounded allowed post now) :
    (attempt call >>= k).run.Grounded allowed post deeds := by
  rw [ExceptT.run_bind,run_attempt,bind_assoc]
  exact grounded.bind then_
end

end

/-! ### Runs -/

section
variable {exec : (statement : Statement) → State → Except Error (Answer statement × State)} {busy : Error}
  {code : Request → Call State Statement Error Answer Reply} {initial : State}

/-- The deed was done in the event. -/
def Deed.Of (exec : (statement : Statement) → State → Except Error (Answer statement × State))
    (event : Event Request State Statement Reply) : Deed State Statement Answer → Prop
  | .read state => event.did = none ∧ event.before = state
  | .did statement answer => event.did = some statement ∧ exec statement event.before = .ok (answer,event.after)
  | .failed _ => event.did = none

/-- Each of the deeds was done in an event of the log, by a call with this request that began then. -/
def Known (exec : (statement : Statement) → State → Except Error (Answer statement × State))
    (log : List (Event Request State Statement Reply)) (request : Request) (since : Nat)
    (deeds : List (Deed State Statement Answer)) : Prop :=
  ∀ deed ∈ deeds, ∃ event ∈ log, event.request = request ∧ event.since = since ∧ deed.Of exec event

theorem Known.later {log : List (Event Request State Statement Reply)} {request : Request} {since : Nat}
    {deeds : List (Deed State Statement Answer)} (known : Known exec log request since deeds)
    (event : Event Request State Statement Reply) : Known exec (event :: log) request since deeds :=
  fun deed member => (known deed member).imp fun _ done => ⟨List.mem_cons_of_mem _ done.1,done.2⟩

/-- A step of a call is a deed, unless the call had ended. -/
theorem Performs.grounded (Request : Type) {allowed : List (Deed State Statement Answer) → Statement → Prop}
    {post : List (Deed State Statement Answer) → Reply → Prop} {call rest : Call State Statement Error Answer Reply}
    {state after : State} {did : Option Statement} {deeds : List (Deed State Statement Answer)}
    (step : Performs exec busy call state did after rest) (grounded : call.Grounded allowed post deeds) :
    (∀ statement, did = some statement → allowed deeds statement) ∧
      ((call = rest ∧ did = none ∧ ∃ result, rest = .done result ∧ post deeds result) ∨
        ∃ deed, rest.Grounded allowed post (deed :: deeds) ∧
          ∀ (request : Request) (since : Nat) (reply : Option Reply), deed.Of exec ⟨request,since,did,state,after,reply⟩) := by
  cases step with
  | answer result => exact ⟨nofun,.inl ⟨rfl,rfl,result,rfl,grounded⟩⟩
  | read next => exact ⟨nofun,.inr ⟨.read state,grounded state,fun _ _ _ => ⟨rfl,rfl⟩⟩⟩
  | commit statement next _ answer _ executed =>
    refine ⟨?_,.inr ⟨.did statement answer,grounded.2.1 answer,fun _ _ _ => ⟨rfl,executed⟩⟩⟩
    rintro _ ⟨⟩
    exact grounded.1
  | fail statement next _ error => exact ⟨nofun,.inr ⟨.failed statement,grounded.2.2 error,fun _ _ _ => rfl⟩⟩
  | refuse statement next => exact ⟨nofun,.inr ⟨.failed statement,grounded.2.2 busy,fun _ _ _ => rfl⟩⟩

/-- In every run a statement is executed, and a reply given, only after deeds of
    the call that allow it. The last deed before a reply, if there is any, is the
    event of the reply. -/
theorem Reachable.grounded (allowed : Request → List (Deed State Statement Answer) → Statement → Prop)
    (post : Request → List (Deed State Statement Answer) → Reply → Prop)
    {config : Config Request State Statement Error Answer Reply} (reached : Reachable exec busy code initial config)
    (starts : ∀ request, (code request).Grounded (allowed request) (post request) []) :
    (∀ entry ∈ config.pool, ∃ deeds, Known exec config.log entry.request entry.since deeds ∧
        entry.code.Grounded (allowed entry.request) (post entry.request) deeds ∧
        ∀ result, entry.code = .done result → deeds = []) ∧
      Throughout (fun older event => ∃ deeds, Known exec older event.request event.since deeds ∧
        (∀ statement, event.did = some statement → allowed event.request deeds statement) ∧
        ∀ reply, event.reply = some reply → (event.did = none ∧ post event.request [] reply) ∨
          ∃ deed : Deed State Statement Answer, deed.Of exec event ∧ post event.request (deed :: deeds) reply)
        config.log := by
  induction reached with
  | initial => exact ⟨by simp,trivial⟩
  | @step config next reached step ih =>
    obtain ⟨pool,log⟩ := ih
    cases step with
    | start request =>
      refine ⟨fun entry member => ?_,log⟩
      rcases List.mem_cons.mp member with rfl | member
      · exact ⟨[],by simp [Known],starts request,fun _ _ => rfl⟩
      · exact pool entry member
    | perform front back entry here did after rest step =>
      obtain ⟨deeds,known,grounded,fresh⟩ := pool entry (by simp [here])
      obtain ⟨may,moved⟩ := step.grounded Request grounded
      have others : ∀ other ∈ config.pool, ∃ deeds, Known exec (⟨entry.request,entry.since,did,config.state,after,
          rest.result?⟩ :: config.log) other.request other.since deeds ∧
          other.code.Grounded (allowed other.request) (post other.request) deeds ∧
          ∀ result, other.code = .done result → deeds = [] := fun other member =>
        (pool other member).imp fun _ held => ⟨held.1.later _,held.2⟩
      refine ⟨fun other member => ?_,⟨deeds,known,may,fun reply ended => ?_⟩,log⟩
      · rcases of_mem_remaining here member with old | ⟨rfl,open_⟩
        · exact others other old
        · have going : ∀ result, rest ≠ .done result := by
            rintro result rfl
            cases open_
          rcases moved with ⟨_,_,result,ended,_⟩ | ⟨deed,left,done⟩
          · exact absurd ended (going result)
          · refine ⟨deed :: deeds,fun one member => ?_,left,fun result ended => absurd ended (going result)⟩
            rcases List.mem_cons.mp member with rfl | member
            · exact ⟨_,List.mem_cons_self,rfl,rfl,done _ _ _⟩
            · exact known.later _ one member
      · obtain ⟨result,rfl⟩ : ∃ result, rest = .done result := by
          cases rest with
          | done result => exact ⟨result,rfl⟩
          | read next => cases ended
          | write statement next => cases ended
        obtain rfl : result = reply := Option.some.inj ended
        rcases moved with ⟨same,none_,_,done,holds⟩ | ⟨deed,left,done⟩
        · obtain rfl := Call.done.inj done
          have empty := fresh result same
          exact .inl ⟨none_,empty ▸ holds⟩
        · exact .inr ⟨deed,done _ _ _,left⟩
    | crash front back entry here =>
      exact ⟨fun other member => pool other (of_mem_lost here member),log⟩

/-! ### Rights that are granted and used -/

section
variable (grants : (statement : Statement) → Answer statement → Bool) (uses : Statement → Bool)

def Deed.granted : Deed State Statement Answer → Bool
  | .did statement answer => grants statement answer
  | _ => false

def Deed.used : Deed State Statement Answer → Bool
  | .did statement _ => uses statement
  | _ => false

def Event.granted (exec : (statement : Statement) → State → Except Error (Answer statement × State))
    (event : Event Request State Statement Reply) : Bool :=
  match event.did with
  | none => false
  | some statement =>
    match exec statement event.before with
    | .ok (answer,_) => grants statement answer
    | .error _ => false

def Event.used (event : Event Request State Statement Reply) : Bool := event.did.any uses

variable {deed : Deed State Statement Answer} {event : Event Request State Statement Reply}

theorem Deed.Of.granted_eq (done : deed.Of exec event) : event.granted grants exec = deed.granted grants := by
  cases deed with
  | read state => simp [Event.granted,Deed.granted,done.1]
  | did statement answer => simp [Event.granted,Deed.granted,done.1,done.2]
  | failed statement => simp [Event.granted,Deed.granted,show event.did = none from done]

theorem Deed.Of.used_eq (done : deed.Of exec event) : event.used uses = deed.used uses := by
  cases deed with
  | read state => simp [Event.used,Deed.used,done.1]
  | did statement answer => simp [Event.used,Deed.used,done.1]
  | failed statement => simp [Event.used,Deed.used,show event.did = none from done]

/-- A use asks for a grant that has not been used. -/
def Granted (deeds : List (Deed State Statement Answer)) (statement : Statement) : Prop :=
  uses statement = true → deeds.countP (Deed.used uses) < deeds.countP (Deed.granted grants)

/-- The grants that are left to a call. -/
def unused (deeds : List (Deed State Statement Answer)) : Nat :=
  deeds.countP (Deed.granted grants) - deeds.countP (Deed.used uses)

/-- The calls in progress, each with its deeds. -/
structure Balance (exec : (statement : Statement) → State → Except Error (Answer statement × State))
    (config : Config Request State Statement Error Answer Reply)
    (held : List (Running Request State Statement Error Answer Reply × List (Deed State Statement Answer))) : Prop where
  pool : config.pool = held.map Prod.fst
  grounded : ∀ entry ∈ held, entry.1.code.Grounded (Granted grants uses) (fun _ _ => True) entry.2
  covered : ∀ entry ∈ held, entry.2.countP (Deed.used uses) ≤ entry.2.countP (Deed.granted grants)
  total : (held.map fun entry => unused grants uses entry.2).sum + config.log.countP (Event.used uses) ≤
    config.log.countP (Event.granted grants exec)

variable {grants uses}

/-- A deed that was allowed leaves the grants of the call covered, and what it uses it had. -/
theorem granted_step {deeds : List (Deed State Statement Answer)}
    (done : deed.Of exec event)
    (covered : deeds.countP (Deed.used uses) ≤ deeds.countP (Deed.granted grants))
    (may : ∀ statement, event.did = some statement → Granted grants uses deeds statement) :
    (deed :: deeds).countP (Deed.used uses) ≤ (deed :: deeds).countP (Deed.granted grants) ∧
      unused grants uses (deed :: deeds) + (if event.used uses then 1 else 0) =
        unused grants uses deeds + if event.granted grants exec then 1 else 0 := by
  have open_ : deed.used uses = true → deeds.countP (Deed.used uses) < deeds.countP (Deed.granted grants) := by
    intro used
    cases deed with
    | did statement answer => exact may statement done.1 used
    | read state => exact nomatch used
    | failed statement => exact nomatch used
  rw [done.used_eq,done.granted_eq]
  simp only [unused,List.countP_cons]
  cases used : deed.used uses with
  | true =>
    have left := open_ used
    cases deed.granted grants <;> simp <;> omega
  | false => cases deed.granted grants <;> simp <;> omega

section
variable {config : Config Request State Statement Error Answer Reply}
  {before behind : List (Running Request State Statement Error Answer Reply × List (Deed State Statement Answer))}
  {one : Running Request State Statement Error Answer Reply × List (Deed State Statement Answer)}

theorem Balance.of_mem (balance : Balance grants uses exec config (before ++ one :: behind))
    {entry : Running Request State Statement Error Answer Reply × List (Deed State Statement Answer)}
    (member : entry ∈ before ++ behind) : entry.1.code.Grounded (Granted grants uses) (fun _ _ => True) entry.2 ∧
      entry.2.countP (Deed.used uses) ≤ entry.2.countP (Deed.granted grants) := by
  have there : entry ∈ before ++ one :: behind := by
    rcases List.mem_append.mp member with first | last
    · exact List.mem_append_left _ first
    · exact List.mem_append_right _ (List.mem_cons_of_mem _ last)
  exact ⟨balance.grounded entry there,balance.covered entry there⟩

/-- A call is replaced by what is left of it. -/
theorem Balance.replace (balance : Balance grants uses exec config (before ++ one :: behind))
    {next : Config Request State Statement Error Answer Reply}
    {left : List (Running Request State Statement Error Answer Reply × List (Deed State Statement Answer))}
    (pool : next.pool = before.map Prod.fst ++ left.map Prod.fst ++ behind.map Prod.fst)
    (each : ∀ entry ∈ left, entry.1.code.Grounded (Granted grants uses) (fun _ _ => True) entry.2 ∧
      entry.2.countP (Deed.used uses) ≤ entry.2.countP (Deed.granted grants))
    (total : (left.map fun entry => unused grants uses entry.2).sum + next.log.countP (Event.used uses) +
        config.log.countP (Event.granted grants exec) ≤
      unused grants uses one.2 + config.log.countP (Event.used uses) + next.log.countP (Event.granted grants exec)) :
    Balance grants uses exec next (before ++ left ++ behind) := by
  have all : ∀ entry ∈ before ++ left ++ behind, entry.1.code.Grounded (Granted grants uses) (fun _ _ => True) entry.2 ∧
      entry.2.countP (Deed.used uses) ≤ entry.2.countP (Deed.granted grants) := by
    intro entry member
    rcases List.mem_append.mp member with member | last
    · rcases List.mem_append.mp member with first | middle
      · exact balance.of_mem (List.mem_append_left _ first)
      · exact each entry middle
    · exact balance.of_mem (List.mem_append_right _ last)
  refine ⟨by simp [pool],fun entry member => (all entry member).1,fun entry member => (all entry member).2,?_⟩
  have earlier := balance.total
  simp only [List.map_append,List.map_cons,List.sum_append,List.sum_cons] at earlier ⊢
  omega
end

/-- Where each use asks for a grant of the call, there are at most as many uses as grants. -/
theorem Reachable.used_le {config : Config Request State Statement Error Answer Reply}
    (reached : Reachable exec busy code initial config)
    (starts : ∀ request, (code request).Grounded (Granted grants uses) (fun _ _ => True) []) :
    config.log.countP (Event.used uses) ≤ config.log.countP (Event.granted grants exec) := by
  suffices ∃ held, Balance grants uses exec config held by
    obtain ⟨_,balance⟩ := this
    exact Nat.le_trans (Nat.le_add_left _ _) balance.total
  induction reached with
  | initial => exact ⟨[],rfl,by simp,by simp,by simp⟩
  | @step config next reached step ih =>
    obtain ⟨held,balance⟩ := ih
    cases step with
    | start request =>
      refine ⟨(⟨request,config.log.length,code request⟩,[]) :: held,by simp [balance.pool],?_,?_,?_⟩
      · exact List.forall_mem_cons.mpr ⟨starts request,balance.grounded⟩
      · exact List.forall_mem_cons.mpr ⟨Nat.le_refl _,balance.covered⟩
      · simpa [unused] using balance.total
    | perform front back entry here did after rest step =>
      obtain ⟨before,_,rfl,rfl,split⟩ := List.map_eq_append_iff.mp (balance.pool.symm.trans here)
      obtain ⟨one,behind,rfl,rfl,rfl⟩ := List.map_eq_cons_iff.mp split
      have covered := balance.covered one (by simp)
      obtain ⟨may,moved⟩ := step.grounded Request (balance.grounded one (by simp))
      rcases moved with ⟨_,rfl,_,rfl,_⟩ | ⟨deed,left,done⟩
      · refine ⟨before ++ [] ++ behind,balance.replace (by simp [remaining]) (by simp) ?_⟩
        simp [Event.used,Event.granted]
      · have event := done one.1.request one.1.since rest.result?
        obtain ⟨covers,balanced⟩ := granted_step event covered may
        cases rest with
        | done result =>
          refine ⟨before ++ [] ++ behind,balance.replace (by simp [remaining]) (by simp) ?_⟩
          simp only [List.countP_cons,List.map_nil,List.sum_nil]
          omega
        | read next =>
          refine ⟨before ++ [({ one.1 with code := .read next },deed :: one.2)] ++ behind,
            balance.replace (by simp [remaining]) (by simpa using ⟨left,covers⟩) ?_⟩
          simp only [List.countP_cons,List.map_cons,List.map_nil,List.sum_cons,List.sum_nil]
          omega
        | write statement next =>
          refine ⟨before ++ [({ one.1 with code := .write statement next },deed :: one.2)] ++ behind,
            balance.replace (by simp [remaining]) (by simpa using ⟨left,covers⟩) ?_⟩
          simp only [List.countP_cons,List.map_cons,List.map_nil,List.sum_cons,List.sum_nil]
          omega
    | crash front back entry here =>
      obtain ⟨before,_,rfl,rfl,split⟩ := List.map_eq_append_iff.mp (balance.pool.symm.trans here)
      obtain ⟨one,behind,rfl,rfl,rfl⟩ := List.map_eq_cons_iff.mp split
      exact ⟨before ++ [] ++ behind,balance.replace (by simp) (by simp) (by simp)⟩
end

end

end

end Proofstorm.Interleaving
