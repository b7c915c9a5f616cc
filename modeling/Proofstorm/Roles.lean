import Proofstorm.Interleaving

/-!
Two roles that exclude each other. A call is in a role where it is about to
execute a statement of the role, and comes into it where it reads (`Call.Enters`).
In runs where a call comes into a role only while no other is in the opposite one,
what holds for the calls of a role is not lost by steps of the others
(`Restricted.roles`).
-/
namespace Proofstorm.Interleaving

section
variable {Request State Statement Error Reply : Type} {Answer : Statement → Type}
  {exec : (statement : Statement) → State → Except Error (Answer statement × State)} {busy : Error}

/-- The call is about to execute a statement of the role. -/
def Call.About (role : Statement → Prop) : Call State Statement Error Answer Reply → Prop
  | .write statement _ => role statement
  | _ => False

theorem Call.About.mono {role wider : Statement → Prop} {call : Call State Statement Error Answer Reply}
    (about : call.About role) (weaker : ∀ statement, role statement → wider statement) : call.About wider := by
  cases call with
  | done result => exact about
  | read next => exact about
  | write statement next => exact weaker statement about

/-- Among the states that satisfy `fact`, the call comes into a role only by a read
    of one that satisfies `open_`. -/
def Call.Enters (fact : State → Prop) (role : Statement → Prop) (open_ : State → Prop) :
    Call State Statement Error Answer Reply → Prop
  | .done _ => True
  | .read next => ∀ state, fact state → ((next state).About role → open_ state) ∧ (next state).Enters fact role open_
  | .write _ next => ∀ answer, ¬ (next answer).About role ∧ (next answer).Enters fact role open_

/-- A call that does not begin in the role. -/
def Call.Outside (fact : State → Prop) (role : Statement → Prop) (open_ : State → Prop)
    (call : Call State Statement Error Answer Reply) : Prop :=
  ¬ call.About role ∧ call.Enters fact role open_

section
variable {fact : State → Prop} {role : Statement → Prop} {open_ : State → Prop} {Value Success : Type}

theorem Call.Outside.done {result : Reply} :
    (.done result : Call State Statement Error Answer Reply).Outside fact role open_ := ⟨id,trivial⟩

theorem Call.Outside.proceed {outcome : Except Error Success}
    {k : Success → Call State Statement Error Answer (Except Error Value)}
    (value : ∀ value, outcome = .ok value → (k value).Outside fact role open_) :
    (Interleaving.proceed outcome k).Outside fact role open_ := by
  cases outcome with
  | ok result => exact value result rfl
  | error error => exact .done

variable {k : Success → Fallible State Statement Error Answer Value} {statement : Statement}

theorem Call.Outside.afterQuery {f : State → Except Error Success}
    (then_ : ∀ state value, fact state → f state = .ok value →
      ((k value).run.About role → open_ state) ∧ (k value).run.Enters fact role open_) :
    (query f >>= k).run.Outside fact role open_ := by
  rw [query_bind]
  refine ⟨id,fun state holds => ?_⟩
  simp only
  cases found : f state with
  | ok value => exact then_ state value holds found
  | error error => exact ⟨False.elim,trivial⟩

/-- The answer of a statement of the role ends the role. -/
theorem Call.Enters.afterSubmit {k : Answer statement → Fallible State Statement Error Answer Value}
    (then_ : ∀ answer, (k answer).run.Outside fact role open_) : (submit statement >>= k).run.Enters fact role open_ := by
  rw [submit_bind]
  exact fun answer => Call.Outside.proceed fun value _ => then_ value

theorem Call.Enters.afterAttempt {k : Except Error (Answer statement) → Fallible State Statement Error Answer Value}
    (then_ : ∀ answer, (k answer).run.Outside fact role open_) :
    (attempt (submit statement) >>= k).run.Enters fact role open_ := fun answer => then_ answer

theorem Call.Enters.submit {statement : Statement} :
    (submit statement : Fallible State Statement Error Answer _).run.Enters fact role open_ := fun _ => Call.Outside.done

/-- A part that executes no statement of the role. -/
theorem Keeps.outside {post : Success → Prop} {call : Fallible State Statement Error Answer Success}
    (keeps : Keeps fact (fun statement => ¬ role statement) call post)
    (then_ : ∀ value, post value → (k value).run.Outside fact role open_) : (call >>= k).run.Outside fact role open_ := by
  rw [ExceptT.run_bind]
  rw [Keeps] at keeps
  generalize call.run = steps at keeps
  induction steps with
  | done result =>
    cases result with
    | ok value => exact then_ value (keeps value rfl)
    | error error => exact .done
  | read next ih =>
    refine ⟨id,fun state holds => ?_⟩
    have later := ih state (keeps state holds)
    exact ⟨fun about => absurd about later.1,later.2⟩
  | write statement next ih => exact ⟨keeps.1,fun answer => ih answer (keeps.2 _)⟩
end

variable {code : Request → Call State Statement Error Answer Reply} {initial : State} {fact : State → Prop}
  {role : Statement → Prop} {open_ : State → Prop}

/-- One step of a call that comes into a role only by reads. -/
theorem Performs.enters {call rest : Call State Statement Error Answer Reply} {state after : State} {did : Option Statement}
    (step : Performs exec busy call state did after rest) (known : fact state) (enters : call.Enters fact role open_) :
    rest.Enters fact role open_ := by
  cases step with
  | answer result => trivial
  | read next => exact (enters state known).2
  | commit statement next _ answer => exact (enters (.ok answer)).2
  | fail statement next _ error => exact (enters (.error error)).2
  | refuse statement next => exact (enters (.error busy)).2

variable
  {may : Config Request State Statement Error Answer Reply → Running Request State Statement Error Answer Reply → Prop}

theorem Restricted.enters
    {config : Config Request State Statement Error Answer Reply} (restricted : Restricted exec busy code initial may config)
    (known : ∀ config, Restricted exec busy code initial may config → fact config.state)
    (begins : ∀ request, (code request).Enters fact role open_) : ∀ entry ∈ config.pool, entry.code.Enters fact role open_ := by
  induction restricted with
  | initial => simp
  | start _ request ih =>
    intro entry member
    rcases List.mem_cons.mp member with rfl | member
    · exact begins request
    · exact ih entry member
  | @perform config restricted front back entry here did after rest step _ ih =>
    intro other member
    rcases of_mem_remaining here member with old | ⟨rfl,_⟩
    · exact ih other old
    · exact step.enters (known config restricted) (ih entry (by simp [here]))
  | crash _ front back entry here ih =>
    exact fun other member => ih other (of_mem_lost here member)

/-- Not one of them is in the one role and the other in the opposite one. -/
def Apart (left right : Statement → Prop)
    (a b : Running Request State Statement Error Answer Reply) : Prop :=
  (a.code.About left → ¬ b.code.About right) ∧ (a.code.About right → ¬ b.code.About left)

/-- What holds for the calls of a role holds until they leave it. -/
theorem Restricted.roles (left right : Statement → Prop) (free taken fact : State → Prop)
    {config : Config Request State Statement Error Answer Reply} (restricted : Restricted exec busy code initial may config)
    (first : fact initial) (begins : ∀ request, ¬ (code request).About left ∧ ¬ (code request).About right)
    (steps : ∀ config entry did after rest, Restricted exec busy code initial may config → entry ∈ config.pool →
      may config entry → Performs exec busy entry.code config.state did after rest → fact config.state →
      (entry.code.About left → free config.state) → (entry.code.About right → taken config.state) →
        fact after ∧ (¬ entry.code.About right → free config.state → free after) ∧
          (¬ entry.code.About left → taken config.state → taken after) ∧
          (rest.About left → free after ∧ ∀ other ∈ config.pool, ¬ other.code.About right) ∧
          (rest.About right → taken after ∧ ∀ other ∈ config.pool, ¬ other.code.About left)) :
    fact config.state ∧ (∀ entry ∈ config.pool, (entry.code.About left → free config.state) ∧ (entry.code.About right → taken config.state)) ∧
      config.pool.Pairwise (Apart left right) := by
  induction restricted with
  | initial => exact ⟨first,by simp,.nil⟩
  | @start config _ request ih =>
    obtain ⟨holds,pool,apart⟩ := ih
    obtain ⟨notLeft,notRight⟩ := begins request
    refine ⟨holds,fun entry member => ?_,.cons (fun other _ => ?_) apart⟩
    · rcases List.mem_cons.mp member with rfl | member
      · exact ⟨fun is => absurd is notLeft,fun is => absurd is notRight⟩
      · exact pool entry member
    · exact ⟨fun is => absurd is notLeft,fun is => absurd is notRight⟩
  | @perform config restricted front back entry here did after rest step allowed ih =>
    obtain ⟨holds,pool,apart⟩ := ih
    have member : entry ∈ config.pool := by simp [here]
    obtain ⟨own,opposite⟩ := pool entry member
    obtain ⟨next,keepsFree,keepsTaken,entersLeft,entersRight⟩ :=
      steps config entry did after rest restricted member allowed step holds own opposite
    rw [here] at apart
    obtain ⟨inFront,behind,across⟩ := List.pairwise_append.mp apart
    obtain ⟨before,inBack⟩ := List.pairwise_cons.mp behind
    have others : ∀ other, other ∈ front ∨ other ∈ back → other ∈ config.pool ∧
        (other.code.About left → ¬ entry.code.About right) ∧ (other.code.About right → ¬ entry.code.About left) := by
      rintro other (there | there)
      · exact ⟨by simp [here,there],across other there entry List.mem_cons_self⟩
      · exact ⟨by simp [here,there],fun is also => (before other there).2 also is,fun is also => (before other there).1 also is⟩
    have still : ∀ other, other ∈ front ∨ other ∈ back → (other.code.About left → free after) ∧ (other.code.About right → taken after) := by
      intro other there
      obtain ⟨member,notRight,notLeft⟩ := others other there
      exact ⟨fun is => keepsFree (notRight is) ((pool other member).1 is),
        fun is => keepsTaken (notLeft is) ((pool other member).2 is)⟩
    have left_ : ∀ new ∈ remaining { entry with code := rest }, new.code = rest := by
      intro new there
      cases rest <;> simp [remaining] at there <;> rw [there]
    have apart_ : ∀ new ∈ remaining { entry with code := rest }, ∀ other, other ∈ front ∨ other ∈ back →
        Apart left right other new ∧ Apart left right new other := by
      intro new there other elsewhere
      obtain ⟨member,_⟩ := others other elsewhere
      rw [Apart,Apart,left_ new there]
      exact ⟨⟨fun is also => (entersRight also).2 other member is,fun is also => (entersLeft also).2 other member is⟩,
        ⟨fun is also => (entersLeft is).2 other member also,fun is also => (entersRight is).2 other member also⟩⟩
    refine ⟨next,fun other there => ?_,?_⟩
    · simp only [List.mem_append] at there
      rcases there with (there | there) | there
      · exact still other (.inl there)
      · rw [left_ other there]
        exact ⟨fun is => (entersLeft is).1,fun is => (entersRight is).1⟩
      · exact still other (.inr there)
    · have single : (remaining { entry with code := rest }).Pairwise (Apart left right) := by
        cases rest <;> simp [remaining]
      refine List.pairwise_append.mpr ⟨List.pairwise_append.mpr ⟨inFront,single,fun other there new isNew => ?_⟩,inBack,
        fun other there behind_ isBehind => ?_⟩
      · exact (apart_ new isNew other (.inl there)).1
      · rcases List.mem_append.mp there with there | isNew
        · exact across other there behind_ (List.mem_cons_of_mem _ isBehind)
        · exact (apart_ other isNew behind_ (.inr isBehind)).2
  | crash _ front back entry here ih =>
    obtain ⟨holds,pool,apart⟩ := ih
    rw [here] at apart
    refine ⟨holds,fun other member => pool other (of_mem_lost here member),apart.sublist ?_⟩
    · exact (List.Sublist.refl front).append (List.sublist_cons_self entry back)
end

end Proofstorm.Interleaving
