import Proofstorm.Tasks.Manager

/-!
What the sessions of the manager come to, one after the other, whatever the
supervisors do and wherever a session is cut off. `Kept` says what holds of the
workspace at every moment; `Needs` is what each operation of the manager needs to
keep it, and the rules for `Holds` follow the manager from one operation to the
next. A task is launched once at most, keeps its request and, once it has ended, its
phase (`launched_once`).
-/
namespace Proofstorm.Tasks
open Proofstorm.Bridge (Phase TaskStart Wire digestJson)
open Proofstorm.Interleaving
open Proofstorm.Sequenced (Carries Record Run)
open Relation (ReflTransGen)

/-! ### Receipts and states -/

/-- A task that has ended has done so by its receipt, its supervisor is gone without
    one, or it had none. -/
def Justified (state : State) (world : World) : Prop :=
  isOpen state.phase = false → (∃ receipt, receiptOf state.taskId world = some receipt ∧ state.phase = receipt.phase) ∨
    (receiptOf state.taskId world = none ∧ state.taskId ∉ world.alive ∧
      (state.phase = .interrupted ∨ (state.phase = .failed ∧ state.taskId ∉ world.launched)))

/-- One state after another of the same task. -/
def Follows (newer older : State) : Prop :=
  newer.taskId = older.taskId → newer.requestDigest = older.requestDigest ∧
    (isOpen older.phase = false → newer.phase = older.phase)

theorem Follows.trans {a b c : State} (newer : Follows a b) (older : Follows b c) (same : a.taskId = b.taskId) : Follows a c := by
  intro alike
  obtain ⟨digest,phase⟩ := newer same
  obtain ⟨before,ended⟩ := older (same.symm.trans alike)
  refine ⟨digest.trans before,fun closed => ?_⟩
  have there := ended closed
  exact (phase (there ▸ closed)).trans there

theorem Follows.refl (state : State) : Follows state state := fun _ => ⟨rfl,fun _ => rfl⟩

theorem Receipt.succeeded {receipt : Receipt} (success : receipt.phase = .succeeded) :
    receipt.cleanupVerified = true ∧ receipt.exitCode = some 0 := by
  unfold Receipt.phase at success
  split_ifs at success with unclean cancelled late zero
  exact ⟨by simpa using unclean,zero⟩

/-! ### What happens beside the manager -/

/-- What the others leave of a state of the workspace. -/
structure Later (a b : World) : Prop where
  states : ∀ id, stateOf id b = stateOf id a
  receipts : ∀ id, id ∉ a.alive → receiptOf id b = receiptOf id a
  stays : ∀ id receipt, receiptOf id a = some receipt → receiptOf id b = some receipt
  alive : b.alive ⊆ a.alive
  launched : b.launched = a.launched
  observed : b.observed = a.observed
  replies : b.replies = a.replies

variable {a b : World}

theorem Later.of_same (tasks : b.tasks = a.tasks) (alive : b.alive ⊆ a.alive) (launched : b.launched = a.launched)
    (observed : b.observed = a.observed) (replies : b.replies = a.replies) : Later a b := by
  have states : ∀ id, stateOf id b = stateOf id a := fun id => by rw [stateOf,tasks,stateOf]
  have receipts : ∀ id, receiptOf id b = receiptOf id a := fun id => by rw [receiptOf,tasks,receiptOf]
  exact ⟨states,fun id _ => receipts id,fun id receipt found => (receipts id).trans found,alive,launched,observed,replies⟩

theorem stateOf_update {world : World} {id other : String} {f : Task → Task} (keeps : ∀ task, key (f task) = key task)
    (same : ∀ task, (f task).state = task.state) :
    stateOf other { world with tasks := world.tasks.update (fun task => key task = id) f keeps } = stateOf other world := by
  rw [stateOf,stateOf,Table.find_update_key]
  split
  · rw [Option.map_map]
    exact congrArg (fun g => Option.map g _) (funext same)
  · rfl

theorem receiptOf_update {world : World} {id other : String} {f : Task → Task} (keeps : ∀ task, key (f task) = key task)
    (same : other = id → ∀ task, (f task).receipt = task.receipt) :
    receiptOf other { world with tasks := world.tasks.update (fun task => key task = id) f keeps } = receiptOf other world := by
  rw [receiptOf,receiptOf,Table.find_update_key]
  split
  · rename_i here
    rw [Option.bind_map]
    exact congrArg (fun g => Option.bind _ g) (funext (same here))
  · rfl

theorem Meanwhile.later (step : Meanwhile a b) : Later a b := by
  cases step with
  | time | files => exact .of_same rfl (List.Subset.refl _) rfl rfl rfl
  | exit id => exact .of_same rfl (fun _ member => List.mem_of_mem_filter member) rfl rfl rfl
  | receipt id receipt alive first =>
    have others : ∀ other, other ≠ id → receiptOf other _ = receiptOf other a :=
      fun other differs => @receiptOf_update a id other (fun task => { task with receipt := some receipt })
        (fun _ => rfl) fun same => absurd same differs
    refine ⟨fun other => stateOf_update _ fun _ => rfl,fun other gone => others other ?_,fun other found there => ?_,
      List.Subset.refl _,rfl,rfl,rfl⟩
    · rintro rfl
      exact gone alive
    · refine (others other ?_).trans there
      rintro rfl
      exact nomatch first.symm.trans there

/-- What a step that writes no state but that of one task leaves of the others. -/
structure Apart (id : String) (a b : World) : Prop where
  states : ∀ other, other ≠ id → stateOf other b = stateOf other a
  alive : b.alive ⊆ a.alive
  launched : b.launched = a.launched

theorem Later.apart (later : Later a b) (id : String) : Apart id a b :=
  ⟨fun other _ => later.states other,later.alive,later.launched⟩

theorem Justified.later {state : State} (justified : Justified state a) (later : Later a b) :
    Justified state b := by
  intro ended
  rcases justified ended with ⟨receipt,found,same⟩ | ⟨none_,gone,phase⟩
  · exact .inl ⟨receipt,later.stays _ _ found,same⟩
  · refine .inr ⟨(later.receipts _ gone).trans none_,fun alive => gone (later.alive alive),?_⟩
    rwa [later.launched]

/-! ### What an operation does -/

section
variable {world after : World}

theorem stateOf_written (state : State) {world : World} (there : (world.tasks.find state.taskId).isSome = true) :
    stateOf state.taskId { world with
      tasks := world.tasks.update (fun task => key task = state.taskId) (fun task => { task with state }) fun _ => rfl } =
        some state := by
  obtain ⟨task,found⟩ := Option.isSome_iff_exists.mp there
  rw [stateOf,Table.find_update_key,if_pos rfl,found]
  rfl

theorem execute_written {state : State} (executed : execute (.writeState state) world = .ok ((),after)) :
    Apart state.taskId world after ∧ stateOf state.taskId after = some state ∧
      (∀ id, receiptOf id after = receiptOf id world) ∧ after.alive = world.alive ∧
        after.observed = state :: world.observed ∧ after.replies = world.replies := by
  simp only [execute,bind_ok,ensure_ok,pure_ok] at executed
  obtain ⟨_,there,same⟩ := executed
  cases same
  refine ⟨⟨fun other differs => ?_,List.Subset.refl _,rfl⟩,stateOf_written state there,
    fun id => receiptOf_update _ fun _ _ => rfl,rfl,rfl,rfl⟩
  rw [stateOf,stateOf,Table.find_update_key,if_neg differs]

theorem execute_renamed {stage : String × Nat} {start : TaskStart} {state : State}
    (executed : execute (.renameStage stage start state) world = .ok ((),after)) :
    stateOf start.taskId world = none ∧ stateOf start.taskId after = some state ∧ Apart start.taskId world after ∧
      (∀ id, receiptOf id after = receiptOf id world) ∧ receiptOf start.taskId after = none ∧
        after.alive = world.alive ∧ after.observed = state :: world.observed ∧ after.replies = world.replies := by
  simp only [execute,bind_ok,ensure_ok,pure_ok] at executed
  obtain ⟨_,_,_,free,same⟩ := executed
  cases same
  have none_ : receiptOf start.taskId world = none := by rw [receiptOf,free]; rfl
  have find : ∀ id, (world.tasks.insert ⟨start,state,none,none⟩).find id =
      (world.tasks.find id).or (if start.taskId = id then some ⟨start,state,none,none⟩ else none) := world.tasks.find_insert _
  have receipts : ∀ id, receiptOf id { world with
      stages := world.stages.filter (· ≠ stage)
      tasks := world.tasks.insert ⟨start,state,none,none⟩
      observed := state :: world.observed } = receiptOf id world := by
    intro id
    rw [receiptOf,receiptOf,find]
    by_cases same : start.taskId = id
    · subst same
      rw [free,Option.none_or,if_pos rfl]
      rfl
    · rw [if_neg same,Option.or_none]
  refine ⟨by rw [stateOf,free]; rfl,?_,⟨fun other differs => ?_,List.Subset.refl _,rfl⟩,receipts,
    (receipts _).trans none_,rfl,rfl,rfl⟩
  · rw [stateOf,find,free,Option.none_or,if_pos rfl]
    rfl
  · rw [stateOf,stateOf,find,if_neg fun same => differs same.symm,Option.or_none]

/-- The other statements leave the states, the receipts and the replies. -/
theorem execute_later {statement : Statement} {answer : statement.Answer} (executed : execute statement world = .ok (answer,after))
    (quiet : match statement with
      | .renameStage .. | .launch _ | .writeState _ | .reply .. => False
      | _ => True) : Later world after := by
  cases statement with
  | renameStage | launch | writeState | reply => exact quiet.elim
  | takeLock =>
    cases executed
    exact .of_same rfl (List.nil_subset _) rfl rfl rfl
  | makeOutput | sync | removeStage =>
    cases executed
    exact .of_same rfl (List.Subset.refl _) rfl rfl rfl
  | createStage | fillStage =>
    simp only [execute,bind_ok,pure_ok] at executed
    obtain ⟨_,_,same⟩ := executed
    cases same
    exact .of_same rfl (List.Subset.refl _) rfl rfl rfl
  | writeCancel id text =>
    simp only [execute,bind_ok,pure_ok] at executed
    obtain ⟨_,_,same⟩ := executed
    cases same
    have receipts : ∀ other, receiptOf other _ = receiptOf other world := fun other =>
      @receiptOf_update world id other (fun task => { task with cancel := some text }) (fun _ => rfl)
        fun _ _ => rfl
    exact ⟨fun other => stateOf_update _ fun _ => rfl,fun other _ => receipts other,
      fun other receipt found => (receipts other).trans found,List.Subset.refl _,rfl,rfl,rfl⟩
end

/-! ### What is kept -/

section
variable [Wire]

/-- The states that a reply tells are those of the tasks, and a start is answered by
    the task of that request. -/
def Reported (request : Request) (outcome : Except Failure Reply) (world : World) : Prop :=
  ∀ reply, outcome = .ok reply → ∀ state ∈ reply.states, stateOf state.taskId world = some state ∧
    ∀ start owner, request = .start start owner → state.taskId = start.taskId ∧ state.requestDigest = digestJson (.start start)

/-- What holds of the workspace at every moment. -/
structure Kept (world : World) : Prop where
  once : world.launched.Nodup
  known : ∀ id ∈ world.launched, (stateOf id world).isSome = true
  living : world.alive ⊆ world.launched
  named : ∀ id state, stateOf id world = some state → state.taskId = id
  ended : ∀ id state, stateOf id world = some state → Justified state world
  shown : ∀ id state, stateOf id world = some state → state ∈ world.observed
  seen : ∀ state ∈ world.observed, ∃ now, stateOf state.taskId world = some now ∧ Follows now state
  final : world.observed.Pairwise Follows
  answered : ∀ start owner outcome, (.start start owner,.ok outcome) ∈ world.replies → ∀ state ∈ outcome.states,
    state.taskId = start.taskId ∧ state.requestDigest = digestJson (.start start)

/-- What an operation of the manager needs to keep it. -/
def Needs (statement : Statement) (world : World) : Prop :=
  match statement with
  | .renameStage _ start state => state.taskId = start.taskId ∧ isOpen state.phase = true
  | .launch id => id ∉ world.launched ∧ ∃ state, stateOf id world = some state ∧ isOpen state.phase = true
  | .writeState state => ∃ old, stateOf state.taskId world = some old ∧ Follows state old ∧ Justified state world
  | .reply request outcome => Reported request outcome world
  | _ => True

variable {a b world after : World}

theorem Kept.later (kept : Kept a) (later : Later a b) : Kept b := by
  refine ⟨?_,?_,?_,?_,?_,?_,?_,?_,?_⟩
  · rw [later.launched]
    exact kept.once
  · intro id member
    rw [later.states]
    exact kept.known id (later.launched ▸ member)
  · rw [later.launched]
    exact fun _ member => kept.living (later.alive member)
  · exact fun id state found => kept.named id state ((later.states id).symm.trans found)
  · exact fun id state found => (kept.ended id state ((later.states id).symm.trans found)).later later
  · rw [later.observed]
    exact fun id state found => kept.shown id state ((later.states id).symm.trans found)
  · intro state member
    rw [later.states]
    exact kept.seen state (later.observed ▸ member)
  · rw [later.observed]
    exact kept.final
  · rw [later.replies]
    exact kept.answered

theorem Kept.follows (kept : Kept world) {state newer : State} (current : stateOf state.taskId world = some state)
    (follows : Follows newer state) (same : newer.taskId = state.taskId) : ∀ older ∈ world.observed, Follows newer older := by
  intro older member alike
  obtain ⟨now,found,later⟩ := kept.seen older member
  have one : now = state := Option.some.inj (found.symm.trans ((same.symm.trans alike) ▸ current))
  exact follows.trans (one ▸ later) same alike

/-! ### Every operation keeps it -/

/-- The state of one task is written. -/
theorem Kept.one (kept : Kept world) {state : State} (apart : Apart state.taskId world after)
    (current : stateOf state.taskId after = some state) (receipts : ∀ id, receiptOf id after = receiptOf id world)
    (observed : after.observed = state :: world.observed) (replies : after.replies = world.replies)
    (follows : ∀ older ∈ world.observed, Follows state older) (justified : Justified state after) : Kept after := by
  have states : ∀ id found, stateOf id after = some found → found = state ∧ id = state.taskId ∨ stateOf id world = some found := by
    intro id found there
    by_cases same : id = state.taskId
    · subst same
      exact .inl ⟨Option.some.inj (there.symm.trans current),rfl⟩
    · exact .inr ((apart.states id same).symm.trans there)
  refine ⟨?_,?_,?_,?_,?_,?_,?_,?_,?_⟩
  · rw [apart.launched]
    exact kept.once
  · intro id member
    by_cases same : id = state.taskId
    · rw [same,current]
      rfl
    · rw [apart.states id same]
      exact kept.known id (apart.launched ▸ member)
  · rw [apart.launched]
    exact fun _ member => kept.living (apart.alive member)
  · intro id found there
    rcases states id found there with ⟨rfl,rfl⟩ | before
    · rfl
    · exact kept.named id found before
  · intro id found there
    rcases states id found there with ⟨rfl,rfl⟩ | before
    · exact justified
    · intro ended
      rcases kept.ended id found before ended with ⟨receipt,has,phase⟩ | ⟨none_,gone,phase⟩
      · exact .inl ⟨receipt,(receipts _).trans has,phase⟩
      · exact .inr ⟨(receipts _).trans none_,fun alive => gone (apart.alive alive),apart.launched ▸ phase⟩
  · intro id found there
    rw [observed]
    rcases states id found there with ⟨rfl,rfl⟩ | before
    · exact List.mem_cons_self
    · exact List.mem_cons_of_mem _ (kept.shown id found before)
  · intro older member
    rw [observed] at member
    rcases List.mem_cons.mp member with rfl | member
    · exact ⟨older,current,.refl older⟩
    · by_cases same : older.taskId = state.taskId
      · exact ⟨state,same ▸ current,follows older member⟩
      · rw [apart.states _ same]
        exact kept.seen older member
  · rw [observed]
    exact List.pairwise_cons.mpr ⟨follows,kept.final⟩
  · rw [replies]
    exact kept.answered

/-- The states of a reply are as the tasks are. -/
theorem Kept.told (kept : Kept world) {request : Request} {outcome : Except Failure Reply} (reported : Reported request outcome world) :
    Kept { world with
      replies := (request,outcome) :: world.replies
      observed := ((outcome.toOption.map Reply.states).getD []) ++ world.observed } := by
  have current : ∀ state ∈ (outcome.toOption.map Reply.states).getD [], stateOf state.taskId world = some state := by
    intro state member
    cases outcome with
    | ok reply => exact (reported reply rfl state member).1
    | error error => exact nomatch member
  refine ⟨kept.once,kept.known,kept.living,kept.named,kept.ended,
    fun id state found => List.mem_append_right _ (kept.shown id state found),?_,?_,?_⟩
  · intro state member
    rcases List.mem_append.mp member with told | before
    · exact ⟨state,current state told,.refl state⟩
    · exact kept.seen state before
  · refine List.pairwise_append.mpr ⟨?_,kept.final,fun state told => kept.follows (current state told) (.refl state) rfl⟩
    refine List.pairwise_of_forall_mem_list fun newer first older second same => ?_
    cases (current newer first).symm.trans (same ▸ current older second)
    exact Follows.refl newer rfl
  · intro start owner reply member state there
    rcases List.mem_cons.mp member with same | before
    · cases same
      exact (reported reply rfl state there).2 start owner rfl
    · exact kept.answered start owner reply before state there

theorem Kept.execute {statement : Statement} {answer : statement.Answer} (kept : Kept world) (needs : Needs statement world)
    (executed : execute statement world = .ok (answer,after)) : Kept after := by
  cases statement with
  | renameStage stage start state =>
    obtain ⟨named,open_⟩ := needs
    obtain ⟨free,current,apart,receipts,_,_,observed,replies⟩ := execute_renamed executed
    refine kept.one (named ▸ apart) (named ▸ current) receipts observed replies ?_ fun ended => nomatch open_.symm.trans ended
    intro older member alike
    obtain ⟨now,found,_⟩ := kept.seen older member
    rw [← alike,named,free] at found
    exact nomatch found
  | launch id =>
    obtain ⟨fresh,state,current,open_⟩ := needs
    cases executed
    refine ⟨List.nodup_cons.mpr ⟨fresh,kept.once⟩,?_,?_,kept.named,?_,kept.shown,kept.seen,kept.final,kept.answered⟩
    · intro other member
      rcases List.mem_cons.mp member with rfl | member
      · exact Option.isSome_iff_exists.mpr ⟨state,current⟩
      · exact kept.known other member
    · exact List.cons_subset_cons _ kept.living
    · intro other found there ended
      have named := kept.named other found there
      have differs : found.taskId ≠ id := by
        rintro rfl
        rw [named] at current
        cases current.symm.trans there
        exact nomatch open_.symm.trans ended
      rcases kept.ended other found there ended with has | ⟨none_,gone,phase⟩
      · exact .inl has
      · refine .inr ⟨none_,List.not_mem_cons_of_ne_of_not_mem differs gone,phase.imp_right fun failed => ?_⟩
        exact ⟨failed.1,List.not_mem_cons_of_ne_of_not_mem differs failed.2⟩
  | writeState state =>
    obtain ⟨old,before,follows,justified⟩ := needs
    obtain ⟨apart,current,receipts,alive,observed,replies⟩ := execute_written executed
    have named := kept.named _ old before
    refine kept.one apart current receipts observed replies (kept.follows (named.symm ▸ before) follows named.symm) ?_
    intro ended
    rw [receipts,alive,apart.launched]
    exact justified ended
  | reply request outcome =>
    cases executed
    exact kept.told needs
  | takeLock | createStage | fillStage | makeOutput | removeStage | sync | writeCancel =>
    exact kept.later (execute_later executed trivial)

/-! ### Programs -/

section
variable {α β : Type} {pre frame : World → Prop} {post : α → World → Prop}

/-- What is said of the workspace holds whatever happens beside the manager. -/
def Stable (fact : World → Prop) : Prop := ∀ a b, Kept a → fact a → Later a b → fact b

/-- What is said of the workspace holds whatever else happens to one task. -/
def Framed (id : String) (frame : World → Prop) : Prop := ∀ a b, frame a → Apart id a b → frame b

/-- From where the workspace is as the manager keeps it and `pre` holds, the program
    does only what keeps it, and `post` holds of its value. -/
def Does (pre : World → Prop) (call : Program α) (post : α → World → Prop) : Prop :=
  ∀ world, Kept world → pre world →
    call.run.Meets execute Meanwhile Needs (fun outcome now => Kept now ∧ OnSuccess post outcome now) world

variable {id : String}

theorem Framed.stable (framed : Framed id frame) : Stable frame := fun _ _ _ holds later =>
  framed _ _ holds (later.apart id)

theorem Stable.and {p q : World → Prop} (left : Stable p) (right : Stable q) : Stable fun now => p now ∧ q now :=
  fun _ _ kept holds later => ⟨left _ _ kept holds.1 later,right _ _ kept holds.2 later⟩

theorem stable_state (id : String) (state : State) : Stable fun now => stateOf id now = some state :=
  fun _ _ _ found later => (later.states id).trans found

theorem stable_any : Stable fun _ => True := fun _ _ _ _ _ => trivial

theorem stable_receipt (id : String) (receipt : Receipt) : Stable fun now => receiptOf id now = some receipt :=
  fun _ _ _ found later => later.stays id receipt found

/-- A supervisor that is gone writes no receipt any more. -/
theorem stable_gone (id : String) : Stable fun now => receiptOf id now = none ∧ id ∉ now.alive :=
  fun _ _ _ holds later => ⟨(later.receipts id holds.2).trans holds.1,fun alive => holds.2 (later.alive alive)⟩

theorem Stable.steps {fact : World → Prop} (stable : Stable fact) {a b : World} (kept : Kept a) (holds : fact a)
    (steps : ReflTransGen Meanwhile a b) : Kept b ∧ fact b := by
  induction steps with
  | refl => exact ⟨kept,holds⟩
  | tail _ step ih => exact ⟨ih.1.later step.later,stable _ _ ih.1 ih.2 step.later⟩

theorem Does.value (stable : Stable pre) {value : α} (implied : ∀ now, Kept now → pre now → post value now) :
    Does pre (pure value) post := by
  intro world kept holds now steps
  have here := stable.steps kept holds steps
  exact ⟨here.1,implied now here.1 here.2⟩

theorem Does.read (stable : Stable pre) {f : World → Except Failure β} {k : β → Program α} (mid : β → World → Prop)
    (found : ∀ now value, Kept now → pre now → f now = .ok value → mid value now) (then_ : ∀ value, Does (mid value) (k value) post) :
    Does pre (query f >>= k) post := by
  intro world kept holds
  refine .afterQuery_kept (fun _ _ (here : Kept _ ∧ pre _) steps => stable.steps here.1 here.2 steps)
    ⟨kept,holds⟩ (fun error now here => ⟨here.1,trivial⟩) ?_
  exact fun now value here same => then_ value now here.1 (found now value here.1 here.2 same)

theorem Does.act (stable : Stable pre) {statement : Statement} {k : Unit → Program α}
    (needs : ∀ now, Kept now → pre now → Needs statement now) (mid : World → Prop)
    (done : ∀ now after, Kept now → pre now → execute statement now = .ok ((),after) → mid after)
    (then_ : Does mid (k ()) post) : Does pre (submit statement >>= k) post := by
  intro world kept holds
  refine .afterSubmit_kept (fun _ _ (here : Kept _ ∧ pre _) steps => stable.steps here.1 here.2 steps)
    ⟨kept,holds⟩ (fun error now here => ⟨here.1,trivial⟩) (fun now here => needs now here.1 here.2) ?_
  exact fun now answer after here executed => then_ after (here.1.execute (needs now here.1 here.2) executed)
    (done now after here.1 here.2 executed)

/-- A read that tells nothing that is needed. -/
theorem Does.skim (stable : Stable pre) {f : World → Except Failure β} {k : β → Program α} (then_ : ∀ value, Does pre (k value) post) :
    Does pre (query f >>= k) post :=
  .read stable (fun _ => pre) (fun _ _ _ here _ => here) then_

/-- A statement that leaves the tasks. -/
theorem Does.pass (stable : Stable pre) {statement : Statement} {k : Unit → Program α} (needs : ∀ now, Needs statement now)
    (later : ∀ now after, execute statement now = .ok ((),after) → Later now after) (then_ : Does pre (k ()) post) :
    Does pre (submit statement >>= k) post :=
  .act stable (fun now _ _ => needs now) pre (fun now after kept here executed => stable now after kept here (later now after executed)) then_

theorem Does.last {statement : Statement} {post : Unit → World → Prop} (done : Does pre (submit statement >>= fun _ => pure ()) post) :
    Does pre (submit statement) post := by
  rwa [bind_pure] at done

theorem Does.bind {call : Program β} {k : β → Program α} {mid : β → World → Prop} (first : Does pre call mid)
    (then_ : ∀ value, Does (mid value) (k value) post) : Does pre (call >>= k) post := by
  intro world kept holds
  rw [ExceptT.run_bind]
  refine (first world kept holds).bind fun outcome now found => ?_
  cases outcome with
  | ok value => exact then_ value now found.1 found.2
  | error error => exact fun last steps => ⟨(stable_any.steps found.1 trivial steps).1,trivial⟩

theorem Does.mono {call : Program α} {goal : α → World → Prop} (does : Does pre call post)
    (weaker : ∀ value now, Kept now → post value now → goal value now) : Does pre call goal := fun world kept holds =>
  (does world kept holds).mono fun outcome now found => ⟨found.1,by
    cases outcome with
    | ok value => exact weaker value now found.1 found.2
    | error error => trivial⟩

theorem Does.of {call : Program α} {other : World → Prop} (does : Does pre call post) (implied : ∀ now, Kept now → other now → pre now) :
    Does other call post := fun world kept holds => does world kept (implied world kept holds)

/-- What does not depend on the workspace. -/
theorem Does.given {call : Program α} {fact : Prop} (does : fact → Does pre call post) : Does (fun now => fact ∧ pre now) call post :=
  fun world kept holds => does holds.1 world kept holds.2

/-! ### Tasks -/

theorem writeState_does (state : State) (framed : Framed state.taskId frame) (stable : Stable pre)
    (needs : ∀ now, Kept now → pre now → Needs (.writeState state) now) (keeps : ∀ now, pre now → frame now) :
    Does pre (writeState state) fun _ now => stateOf state.taskId now = some state ∧ frame now := by
  have stays : Stable fun now => stateOf state.taskId now = some state ∧ frame now := (stable_state _ _).and framed.stable
  rw [writeState]
  refine .act stable needs (fun now => stateOf state.taskId now = some state ∧ frame now) ?_ ?_
  · intro now after _ holds executed
    obtain ⟨apart,current,_⟩ := execute_written executed
    exact ⟨current,framed _ _ (keeps now holds) apart⟩
  · exact .last (.pass stays (fun _ => trivial) (fun _ _ executed => execute_later executed trivial)
      (.value stays fun _ _ here => here))

theorem updateReceipt_does {state : State} (framed : Framed state.taskId frame) :
    Does (fun now => stateOf state.taskId now = some state ∧ frame now) (updateReceipt state)
      fun found now => found.taskId = state.taskId ∧ stateOf state.taskId now = some found ∧ frame now := by
  have stable : Stable fun now => stateOf state.taskId now = some state ∧ frame now := (stable_state _ _).and framed.stable
  rw [updateReceipt]
  refine .read stable (fun receipt now => receiptOf state.taskId now = some receipt ∧ stateOf state.taskId now = some state ∧
    frame now) (fun now receipt _ here found => ⟨require_ok.mp found,here⟩) fun receipt => ?_
  have known := (stable_receipt state.taskId receipt).and stable
  split
  · exact .value known fun _ _ here => ⟨rfl,here.2⟩
  · rename_i other
    refine .skim known fun now => ?_
    refine .bind (writeState_does ({ state with
      phase := receipt.phase
      completedAtUnix := some now
      exitCode := receipt.exitCode
      exitSignal := receipt.exitSignal
      cleanupVerified := some receipt.cleanupVerified
      timedOut := some receipt.timedOut
      cancelled := some receipt.cancelled }) framed known ?_ fun _ here => here.2.2) fun _ => ?_
    · rintro now kept ⟨found,current,_⟩
      refine ⟨state,current,fun _ => ⟨rfl,fun ended => ?_⟩,fun _ => .inl ⟨receipt,found,rfl⟩⟩
      -- A task that has ended with a receipt shows the phase of the receipt.
      rcases kept.ended _ _ current ended with ⟨same,has,phase⟩ | ⟨none_,_⟩
      · cases found.symm.trans has
        exact absurd phase other
      · exact nomatch none_.symm.trans found
    · exact .value ((stable_state _ _).and framed.stable) fun _ _ here => ⟨rfl,here⟩

theorem status_does (framed : Framed id frame) :
    Does frame (status id) fun state now => stateOf id now = some state ∧ frame now := by
  rw [status,readState]
  refine .read framed.stable (fun state now => state.taskId = id ∧ stateOf id now = some state ∧ frame now) ?_ fun state => ?_
  · intro now state kept here found
    have current := require_ok.mp found
    exact ⟨kept.named id state current,current,here⟩
  refine .given ?_
  rintro rfl
  have stable := (stable_state state.taskId state).and framed.stable
  refine .skim stable fun has => ?_
  split
  · exact (updateReceipt_does framed).mono fun _ _ _ found => found.2
  · exact .value stable fun _ _ here => here

/-- A supervisor that is gone without a receipt. -/
theorem interrupt_does {state : State} {reason : String} (framed : Framed state.taskId frame)
    (fits : isOpen state.phase = false → state.phase = .interrupted) :
    Does (fun now => stateOf state.taskId now = some state ∧
      (receiptOf state.taskId now = none ∧ state.taskId ∉ now.alive) ∧ frame now) (interrupt state reason) fun _ now => frame now := by
  have stable := (stable_state state.taskId state).and ((stable_gone state.taskId).and framed.stable)
  rw [interrupt]
  refine .skim stable fun now => ?_
  refine .mono (writeState_does ({ state with
    phase := .interrupted
    reason := some reason
    completedAtUnix := some now
    cleanupVerified := some false }) framed stable ?_ fun _ here => here.2.2) fun _ _ _ found => found.2
  rintro now _ ⟨current,gone,_⟩
  exact ⟨state,current,fun _ => ⟨rfl,fun ended => (fits ended).symm⟩,fun _ => .inr ⟨gone.1,gone.2,.inl rfl⟩⟩

theorem recoverTask_does :
    Does (fun now => now.alive = []) (recoverTask id) fun _ now => now.alive = [] := by
  have none_ : ∀ id, Framed id fun now => now.alive = [] := fun id a b holds apart => List.subset_nil.mp (holds ▸ apart.alive)
  rw [recoverTask,readState]
  refine .read (none_ id).stable (fun state now => state.taskId = id ∧ stateOf id now = some state ∧ now.alive = []) ?_ fun state => ?_
  · intro now state kept here found
    have current := require_ok.mp found
    exact ⟨kept.named id state current,current,here⟩
  refine .given ?_
  rintro rfl
  have stable := (stable_state state.taskId state).and (none_ state.taskId).stable
  split
  · rename_i open_
    refine .read stable (fun has now => (has = false → receiptOf state.taskId now = none) ∧
      stateOf state.taskId now = some state ∧ now.alive = []) ?_ fun has => ?_
    · rintro now _ _ here ⟨⟩
      exact ⟨fun none_ => Option.isNone_iff_eq_none.mp (by simpa using none_),here⟩
    split
    · refine .of (.bind (updateReceipt_does (none_ state.taskId)) fun found => ?_) fun _ _ here => here.2
      refine .given fun same => .value ((stable_state _ _).and (none_ state.taskId).stable) fun _ _ here => here.2
    · rename_i unwritten
      refine .of (interrupt_does (none_ state.taskId) fun ended => nomatch open_.symm.trans ended) fun now _ here => ?_
      exact ⟨here.2.1,⟨here.1 (by simpa using unwritten),by simp [here.2.2]⟩,here.2.2⟩
  · exact .value stable fun _ _ here => here.2

theorem forM_does {list : List β} {f : β → Program Unit} (stable : Stable pre) (each : ∀ a ∈ list, Does pre (f a) fun _ now => pre now) :
    Does pre (list.forM f) fun _ now => pre now := by
  induction list with
  | nil => exact .value stable fun _ _ here => here
  | cons a rest ih =>
    exact .bind (each a List.mem_cons_self) fun _ => ih fun b member => each b (List.mem_cons_of_mem a member)

theorem recover_does : Does (fun now => now.alive = []) recover fun _ now => now.alive = [] := by
  have stable : Stable fun now => now.alive = [] := fun a b _ holds later => List.subset_nil.mp (holds ▸ later.alive)
  rw [recover]
  exact .skim stable fun found => forM_does stable fun _ _ => recoverTask_does

theorem stop_does (framed : Framed id frame) :
    Does frame (stop id) fun state now => stateOf id now = some state ∧ frame now := by
  have stable : ∀ state, Stable fun now => stateOf id now = some state ∧ frame now := fun state =>
    (stable_state id state).and framed.stable
  rw [stop]
  refine .bind ((status_does framed).mono fun state now kept here => show state.taskId = id ∧ stateOf id now = some state ∧ frame now
    from ⟨kept.named id state here.1,here⟩) fun state => .given ?_
  rintro rfl
  split
  · rename_i open_
    refine .bind (show Does _ _ fun _ now => stateOf state.taskId now = some state ∧ frame now from ?_) fun _ => ?_
    · rw [writeCancel]
      refine .pass (stable state) (fun _ => trivial) (fun _ _ executed => execute_later executed trivial) ?_
      exact .last (.pass (stable state) (fun _ => trivial) (fun _ _ executed => execute_later executed trivial)
        (.value (stable state) fun _ _ here => here))
    · refine .bind (writeState_does ({ state with phase := .stopping }) framed (stable state) ?_ fun _ here => here.2)
        fun _ => .value (stable { state with phase := .stopping }) fun _ _ here => here
      rintro now _ ⟨current,_⟩
      exact ⟨state,current,fun _ => ⟨rfl,fun ended => nomatch open_.symm.trans ended⟩,fun ended => nomatch ended⟩
  · exact .value (stable state) fun _ _ here => here

theorem stable_states (states : List State) : Stable fun now => ∀ state ∈ states, stateOf state.taskId now = some state :=
  fun _ _ _ holds later state member => (later.states _).trans (holds state member)

theorem statuses_does {ids : List String} (distinct : ids.Nodup) (framed : ∀ id ∈ ids, Framed id frame) (stable : Stable frame) :
    Does frame (ids.mapM status) fun states now => (∀ state ∈ states, stateOf state.taskId now = some state) ∧ frame now := by
  induction ids generalizing frame with
  | nil =>
    rw [List.mapM_nil]
    exact .value stable fun _ _ here => ⟨by simp,here⟩
  | cons id rest ih =>
    obtain ⟨fresh,distinct⟩ := List.nodup_cons.mp distinct
    have others : ∀ state, ∀ other ∈ rest, Framed other fun now => stateOf id now = some state ∧ frame now :=
      fun state other member a b holds apart => ⟨(apart.states id fun same => fresh (same ▸ member)).trans holds.1,
        framed other (List.mem_cons_of_mem id member) a b holds.2 apart⟩
    have still : ∀ state, Stable fun now => stateOf id now = some state ∧ frame now := fun state => (stable_state id state).and stable
    rw [List.mapM_cons]
    refine Does.bind (status_does (framed id List.mem_cons_self)) fun state => ?_
    refine Does.bind (ih distinct (others state) (still state)) fun states => ?_
    refine Does.value ((stable_states states).and (still state)) ?_
    rintro now kept ⟨rest,current,here⟩
    refine ⟨fun found member => ?_,here⟩
    rcases List.mem_cons.mp member with rfl | member
    · rw [kept.named id found current]
      exact current
    · exact rest found member

/-- A reply about the tasks as they are. -/
def Told (states : List State) (now : World) : Prop := ∀ state ∈ states, stateOf state.taskId now = some state

theorem list_does {after : Option String} (framed : ∀ id, Framed id frame) (stable : Stable frame) :
    Does frame (list after) fun reply now => Told reply.states now ∧ frame now := by
  rw [list,ids]
  refine .read stable (fun found now => found.Nodup ∧ frame now) ?_ fun found => .given fun distinct => ?_
  · rintro now _ _ here ⟨⟩
    exact ⟨((now.tasks.rows.map key).perm_insertionSort (· ≤ ·)).nodup_iff.mpr now.tasks.unique,here⟩
  refine .bind (statuses_does ((distinct.filter _).sublist (List.take_sublist 8 _)) (fun id _ => framed id) stable) fun states => ?_
  exact .value ((stable_states states).and stable) fun _ _ here => here

/-! ### The start of a task -/

variable {children : List String}

theorem stable_launched (children : List String) : Stable fun now => children ⊆ now.launched :=
  fun _ _ _ holds later => fun _ member => later.launched ▸ holds member

omit [Wire] in
theorem framed_launched (children : List String) (id : String) : Framed id fun now => children ⊆ now.launched :=
  fun _ _ holds apart => fun _ member => apart.launched ▸ holds member

/-- The state of a task that has no supervisor yet. -/
structure Claimed (children : List String) (state : State) (now : World) : Prop where
  current : stateOf state.taskId now = some state
  unwritten : receiptOf state.taskId now = none
  fresh : state.taskId ∉ now.launched
  others : children ⊆ now.launched

theorem stable_claimed (children : List String) (state : State) : Stable (Claimed children state) := by
  intro a b kept claimed later
  have gone : state.taskId ∉ a.alive := fun alive => claimed.fresh (kept.living alive)
  exact ⟨(later.states _).trans claimed.current,(later.receipts _ gone).trans claimed.unwritten,
    later.launched ▸ claimed.fresh,later.launched ▸ claimed.others⟩

/-- The state is that of the request. -/
structure Belongs (start : TaskStart) (state : State) : Prop where
  taskId : state.taskId = start.taskId
  digest : state.requestDigest = digestJson (.start start)

/-- The rename that claims the task. -/
theorem claim_does {start : TaskStart} {stage : String × Nat} {state : State} (belongs : Belongs start state)
    (open_ : isOpen state.phase = true) :
    Does (fun now => children ⊆ now.launched)
      (do
        submit (.renameStage stage start state)
        submit .sync
        pure state)
      fun found now => (Belongs start found ∧ isOpen found.phase = true) ∧ Claimed children found now := by
  refine .act (stable_launched children) (fun _ _ _ => ⟨belongs.taskId,open_⟩) (Claimed children state) ?_ ?_
  · intro now after kept holds executed
    obtain ⟨free,current,apart,_,unwritten,_⟩ := execute_renamed executed
    rw [← belongs.taskId] at free current apart unwritten
    refine ⟨current,unwritten,fun member => ?_,apart.launched.symm ▸ holds⟩
    have known := kept.known _ (apart.launched ▸ member)
    rw [free] at known
    exact nomatch known
  · refine .pass (stable_claimed children state) (fun _ => trivial) (fun _ _ executed => execute_later executed trivial) ?_
    refine .value ?_ fun _ _ here => ⟨⟨belongs,open_⟩,here⟩
    exact stable_claimed children state

theorem prepare_does {start : TaskStart} {owner : Option String} {stage : String × Nat} :
    Does (fun now => children ⊆ now.launched) (prepare start owner stage)
      fun state now => (Belongs start state ∧ isOpen state.phase = true) ∧ Claimed children state now := by
  have stable := stable_launched children
  have fill : ∀ {k : Unit → Program State} {post : State → World → Prop}, Does (fun now => children ⊆ now.launched) (k ()) post →
      Does (fun now => children ⊆ now.launched) (submit (.fillStage stage) >>= k) post := fun rest =>
    .pass stable (fun _ => trivial) (fun _ _ executed => execute_later executed trivial) rest
  rw [prepare]
  refine .skim stable fun sourceDigest => fill (fill (fill (.skim stable fun image => .skim stable fun now => fill ?_)))
  refine .pass stable (fun _ => trivial) (fun _ _ executed => execute_later executed trivial) ?_
  exact claim_does ⟨rfl,rfl⟩ rfl

theorem Does.tryAct (stable : Stable pre) {statement : Statement} {k : Except Failure Unit → Program α}
    (needs : ∀ now, Kept now → pre now → Needs statement now) (mid : World → Prop)
    (done : ∀ now after, Kept now → pre now → execute statement now = .ok ((),after) → mid after)
    (success : Does mid (k (.ok ())) post) (failure : ∀ error, Does pre (k (.error error)) post) :
    Does pre (attempt (submit statement) >>= k) post := by
  intro world kept holds
  rw [attempt_submit_bind]
  intro now steps
  have here := stable.steps kept holds steps
  have allowed := needs now here.1 here.2
  exact ⟨allowed,fun answer after executed => success after (here.1.execute allowed executed) (done now after here.1 here.2 executed),
    fun error => failure error now here.1 here.2⟩

/-- The state of a task after its launch, still to be written. -/
structure Launched (children : List String) (old : State) (child : Bool) (state : State) (now : World) : Prop where
  current : stateOf old.taskId now = some old
  named : state.taskId = old.taskId
  digest : state.requestDigest = old.requestDigest
  justified : Justified state now
  children : (if child then children.orderedInsert (· ≤ ·) old.taskId else children) ⊆ now.launched

theorem stable_launch (children : List String) (old : State) (child : Bool) (state : State) :
    Stable (Launched children old child state) := fun _ _ _ holds later =>
  ⟨(later.states _).trans holds.current,holds.named,holds.digest,holds.justified.later later,later.launched ▸ holds.children⟩

theorem launch_does {state : State} (open_ : isOpen state.phase = true) :
    Does (Claimed children state) (launch state) fun result now => Launched children state result.1 result.2 now := by
  rw [launch]
  refine .tryAct (stable_claimed children state) (fun _ _ here => ⟨here.fresh,state,here.current,open_⟩)
    (fun now => stateOf state.taskId now = some state ∧ children.orderedInsert (· ≤ ·) state.taskId ⊆ now.launched) ?_ ?_
    fun error => ?_
  · rintro now after kept here ⟨⟩
    refine ⟨here.current,fun id member => ?_⟩
    rcases (List.mem_orderedInsert _).mp member with rfl | member
    · exact List.mem_cons_self
    · exact List.mem_cons_of_mem _ (here.others member)
  · refine .skim ((stable_state _ _).and (stable_launched _)) fun now => ?_
    exact .value ((stable_state _ _).and (stable_launched _)) fun _ _ here => ⟨here.1,rfl,rfl,(fun ended => nomatch ended),here.2⟩
  · refine .skim (stable_claimed children state) fun now => .value (stable_claimed children state) fun now kept here => ?_
    refine ⟨here.current,rfl,rfl,fun _ => .inr ⟨here.unwritten,fun alive => here.fresh (kept.living alive),.inr ⟨rfl,here.fresh⟩⟩,here.others⟩

/-- The children after a start are tasks that were launched, and its state is that of
    the task and the request. -/
def Begun (start : TaskStart) (result : List String × Except Failure State) (now : World) : Prop :=
  result.1 ⊆ now.launched ∧ ∀ state, result.2 = .ok state → stateOf state.taskId now = some state ∧ Belongs start state

theorem stable_begun (start : TaskStart) (result : List String × Except Failure State) : Stable (Begun start result) :=
  fun _ _ _ holds later => ⟨fun _ member => later.launched ▸ holds.1 member,fun state same =>
    ⟨(later.states _).trans (holds.2 state same).1,(holds.2 state same).2⟩⟩

omit [Wire] in
theorem framed_any (id : String) : Framed id fun _ => True := fun _ _ _ _ => trivial

/-- A start that has failed. -/
theorem begun_error {start : TaskStart} {error : Failure} :
    Does (fun now => children ⊆ now.launched) (pure (children,.error error) : Program (List String × Except Failure State))
      (Begun start) :=
  Does.value (stable_launched children) fun _ _ here => ⟨here,fun _ same => by simp at same⟩

theorem Does.trySkim (stable : Stable pre) {f : World → Except Failure β} {k : Except Failure β → Program α}
    (then_ : ∀ outcome, Does pre (k outcome) post) : Does pre (attempt (query f) >>= k) post := by
  intro world kept holds
  rw [attempt_query_bind]
  intro now steps
  have here := stable.steps kept holds steps
  exact then_ _ now here.1 here.2

omit [Wire] in
theorem execute_grows {statement : Statement} {answer : statement.Answer} (executed : execute statement world = .ok (answer,after)) :
    world.launched ⊆ after.launched := by
  cases statement with
  | launch id =>
    cases executed
    exact List.subset_cons_self _ _
  | takeLock | makeOutput | sync | removeStage | reply =>
    cases executed
    exact List.Subset.refl _
  | _ =>
    simp only [execute,bind_ok,pure_ok] at executed
    obtain ⟨_,_,same⟩ := executed
    first
    | cases same
      exact List.Subset.refl _
    | obtain ⟨_,_,same⟩ := same
      cases same
      exact List.Subset.refl _

/-- No operation takes a launch back, whatever its outcome. -/
theorem Does.tryGrown {call : Program β} {k : Except Failure β → Program α} {mid : β → World → Prop} (first : Does pre call mid)
    (then_ : ∀ outcome, Does (fun now => children ⊆ now.launched ∧ OnSuccess mid outcome now) (k outcome) post) :
    Does (fun now => children ⊆ now.launched ∧ pre now) (attempt call >>= k) post := by
  intro world kept holds
  have framed := (first world kept holds.2).frame (fun now => children ⊆ now.launched) holds.1
    (fun a b here step _ member => step.later.launched ▸ here member)
    fun _ _ _ _ here _ executed => List.Subset.trans here (execute_grows executed)
  exact .afterAttempt framed fun outcome now found => then_ outcome now found.1.1 ⟨found.2,found.1.2⟩

/-- The state after a launch is written. -/
theorem finish_does {start : TaskStart} {old found : State} {child : Bool} (belongs : Belongs start old) (open_ : isOpen old.phase = true) :
    Does (Launched children old child found)
      (do
        let outcome ← attempt (writeState found)
        pure (if child then children.orderedInsert (· ≤ ·) start.taskId else children,outcome.map fun _ => found))
      (Begun start) := by
  rw [← belongs.taskId]
  refine .of (show Does (fun now => (found.taskId = old.taskId ∧ found.requestDigest = old.requestDigest) ∧ _ ∧ _) _ _ from
    .given fun same => .tryGrown (writeState_does found (framed_any _) (stable_launch children old child found) ?_ fun _ _ => trivial) fun outcome => ?_)
    fun now _ here => ⟨⟨here.named,here.digest⟩,here.children,here⟩
  · rintro now _ here
    exact ⟨old,here.named ▸ here.current,fun _ => ⟨here.digest,fun ended => nomatch open_.symm.trans ended⟩,here.justified⟩
  · cases outcome with
    | error error => exact .value ((stable_launched _).and stable_any) fun _ _ here => ⟨here.1,fun _ same => by simp [Except.map] at same⟩
    | ok _ =>
      refine .value ((stable_launched _).and ((stable_state _ _).and stable_any)) ?_
      rintro now _ ⟨others,current,_⟩
      refine ⟨others,?_⟩
      rintro _ ⟨⟩
      exact ⟨current,same.1.trans belongs.taskId,same.2.trans belongs.digest⟩

theorem startFresh_does {start : TaskStart} {owner : Option String} :
    Does (fun now => children ⊆ now.launched) (startFresh children start owner) (Begun start) := by
  have stable := stable_launched children
  rw [startFresh]
  refine .skim stable fun found => ?_
  split
  · exact begun_error
  split
  · exact begun_error
  refine .trySkim stable fun located => ?_
  split
  · exact begun_error
  · exact begun_error
  refine .skim stable fun nanos => ?_
  refine .tryAct stable (fun _ _ _ => trivial) (fun now => children ⊆ now.launched)
    (fun now after kept here executed => stable _ _ kept here (execute_later executed trivial)) ?_ fun _ => begun_error
  refine .of (.tryGrown prepare_does fun outcome => ?_) fun _ _ here => ⟨here,here⟩
  cases outcome with
  | error error =>
    refine .of ?_ fun _ _ (here : children ⊆ _ ∧ _) => here.1
    exact .tryAct stable (fun _ _ _ => trivial) (fun now => children ⊆ now.launched)
      (fun now after kept here executed => stable _ _ kept here (execute_later executed trivial)) begun_error fun _ => begun_error
  | ok state =>
    refine .of (.given fun known => .bind (launch_does known.2) fun result => ?_) fun _ _ here => here.2
    exact finish_does known.1 known.2

theorem start_does {start : TaskStart} {owner : Option String} :
    Does (fun now => children ⊆ now.launched) (Tasks.start children start owner) (Begun start) := by
  have stable := stable_launched children
  rw [Tasks.start]
  split
  · exact begun_error
  refine .skim stable fun has => ?_
  split
  · refine .of (.tryGrown (status_does (framed_any start.taskId)) fun outcome => ?_)
      fun _ _ here => ⟨here,trivial⟩
    cases outcome with
    | error error => exact .value (stable.and stable_any) fun _ _ here => ⟨here.1,fun _ same => by simp [Except.bind] at same⟩
    | ok state =>
      refine .value (stable.and ((stable_state _ _).and stable_any)) ?_
      rintro now kept ⟨others,current,_⟩
      refine ⟨others,fun found same => ?_⟩
      simp only [Except.bind] at same
      split at same
      · rename_i digest
        cases same
        have named := kept.named _ _ current
        exact ⟨named.symm ▸ current,named,digest⟩
      · cases same
  · exact startFresh_does

/-! ### Requests, exits and sessions -/

theorem stable_reported (request : Request) (outcome : Except Failure Reply) : Stable (Reported request outcome) :=
  fun _ _ _ holds later reply same state member => ⟨(later.states _).trans (holds reply same state member).1,
    (holds reply same state member).2⟩

variable {request : Request} {rounds : Nat}

/-- An answer that is no start. -/
theorem answered_does {call : Program β} (tell : β → Reply) {reply : Except Failure β → Except Failure Reply}
    (failed : ∀ error, reply (.error error) = .error error) (told : ∀ value, reply (.ok value) = .ok (tell value))
    (other : ∀ start owner, request ≠ .start start owner) (does : Does (fun _ => True) call fun value now => Told (tell value).states now) :
    Does (fun now => children ⊆ now.launched)
      (do
        let outcome ← attempt call
        pure (children,reply outcome))
      fun result now => result.1 ⊆ now.launched ∧ Reported request result.2 now := by
  refine .of (.tryGrown does fun outcome => ?_) fun _ _ here => ⟨here,trivial⟩
  cases outcome with
  | error error =>
    rw [failed]
    exact .value ((stable_launched children).and stable_any) fun _ _ here => ⟨here.1,fun _ same => by simp at same⟩
  | ok value =>
    rw [told]
    refine .value ((stable_launched children).and (stable_states (tell value).states)) ?_
    rintro now _ ⟨others,told⟩
    refine ⟨others,?_⟩
    rintro _ ⟨⟩ state member
    exact ⟨told state member,fun start owner same => absurd same (other start owner)⟩

/-- One state is told, of the task that was asked for. -/
theorem told_one {state : State} {now : World} (kept : Kept now) (current : stateOf id now = some state) :
    Told (Reply.task state).states now := by
  intro told member
  rw [List.mem_singleton.mp member,kept.named id state current]
  exact current

theorem answer_does : Does (fun now => children ⊆ now.launched) (answer children request)
    fun result now => result.1 ⊆ now.launched ∧ Reported request result.2 now := by
  unfold answer
  split
  · exact .value (stable_launched children) fun _ _ here => ⟨here,fun _ same => by simp at same⟩
  cases request with
  | start start owner =>
    refine .bind start_does fun result => .value (stable_begun start result) fun now _ begun => ?_
    refine ⟨begun.1,fun reply same state member => ?_⟩
    obtain ⟨found,there,rfl⟩ : ∃ found, result.2 = .ok found ∧ Reply.task found = reply := by
      cases outcome : result.2 with
      | error error => simp [outcome,Except.map] at same
      | ok found => exact ⟨found,rfl,by simpa [outcome,Except.map] using same⟩
    rw [List.mem_singleton.mp member]
    obtain ⟨current,belongs⟩ := begun.2 found there
    refine ⟨current,?_⟩
    rintro _ _ ⟨⟩
    exact ⟨belongs.taskId,belongs.digest⟩
  | status id =>
    exact answered_does .task (fun _ => rfl) (fun _ => rfl) nofun
      ((status_does (framed_any id)).mono fun _ _ kept found => told_one kept found.1)
  | stop id =>
    exact answered_does .task (fun _ => rfl) (fun _ => rfl) nofun
      ((stop_does (framed_any id)).mono fun _ _ kept found => told_one kept found.1)
  | list after =>
    exact answered_does id (fun _ => rfl) (fun _ => rfl) nofun
      ((list_does framed_any stable_any).mono fun _ _ _ found => found.1)

/-- Supervisors that were launched and are gone. -/
def Gone (finished : List String) (now : World) : Prop := ∀ id ∈ finished, id ∈ now.launched ∧ id ∉ now.alive

omit [Wire] in
theorem framed_gone (finished : List String) (id : String) : Framed id (Gone finished) := fun _ _ holds apart other member =>
  ⟨apart.launched ▸ (holds other member).1,fun alive => (holds other member).2 (apart.alive alive)⟩

theorem reapTask_does {finished : List String} (member : id ∈ finished) (framed : Framed id frame) :
    Does (fun now => Gone finished now ∧ frame now) (reapTask id) fun _ now => Gone finished now ∧ frame now := by
  have both : Framed id fun now => Gone finished now ∧ frame now := fun a b holds apart =>
    ⟨framed_gone finished id a b holds.1 apart,framed a b holds.2 apart⟩
  rw [reapTask]
  refine .bind ((status_does both).mono fun state now kept found => show state.taskId = id ∧ stateOf id now = some state ∧ _
    from ⟨kept.named id state found.1,found⟩) fun state => .given ?_
  rintro rfl
  have stable := (stable_state state.taskId state).and both.stable
  refine .read stable (fun has now => (has = false → receiptOf state.taskId now = none ∧
    (isOpen state.phase = false → state.phase = .interrupted)) ∧ stateOf state.taskId now = some state ∧ Gone finished now ∧ frame now)
    ?_ fun has => ?_
  · rintro now _ kept ⟨current,gone,here⟩ ⟨⟩
    refine ⟨fun absent => ?_,current,gone,here⟩
    have none_ : receiptOf state.taskId now = none := Option.isNone_iff_eq_none.mp (by simpa using absent)
    refine ⟨none_,fun ended => ?_⟩
    rcases kept.ended _ _ current ended with ⟨receipt,found,_⟩ | ⟨_,_,phase | ⟨_,fresh⟩⟩
    · exact nomatch none_.symm.trans found
    · exact phase
    · exact absurd (gone _ member).1 fresh
  cases has with
  | true => exact .of (.value stable fun _ _ here => here.2) fun _ _ here => here.2
  | false =>
    refine .of (.given fun fits => interrupt_does both fits) fun now _ here => ?_
    exact ⟨(here.1 rfl).2,here.2.1,⟨(here.1 rfl).1,(here.2.2.1 _ member).2⟩,here.2.2⟩

theorem stable_absent (list : List String) : Stable fun now => ∀ id ∈ list, id ∉ now.alive :=
  fun _ _ _ holds later id member alive => holds id member (later.alive alive)

theorem exited_does (stable : Stable frame) : Does frame (exited children) fun gone now =>
    gone ⊆ children ∧ (∀ id ∈ gone, id ∉ now.alive) ∧ frame now := by
  induction children generalizing frame with
  | nil => exact .value stable fun _ _ here => ⟨List.Subset.refl _,by simp,here⟩
  | cons id rest ih =>
    rw [exited]
    refine .read stable (fun gone now => (gone = true → id ∉ now.alive) ∧ frame now) ?_ fun gone => ?_
    · rintro now _ _ here ⟨⟩
      exact ⟨fun absent => by simpa using absent,here⟩
    have known : Stable fun now => (gone = true → id ∉ now.alive) ∧ frame now :=
      Stable.and (fun _ _ _ absent later same alive => absent same (later.alive alive)) stable
    refine .bind (ih known) fun others => .given fun among => ?_
    refine .value ((stable_absent others).and known) ?_
    rintro now _ ⟨absent,here,holds⟩
    cases gone with
    | false => exact ⟨fun _ member => List.mem_cons_of_mem id (among member),absent,holds⟩
    | true =>
      refine ⟨List.cons_subset_cons id among,fun other member => ?_,holds⟩
      rcases List.mem_cons.mp member with rfl | member
      · exact here rfl
      · exact absent other member

theorem reap_does : Does (fun now => children ⊆ now.launched) (reap children) fun rest now => rest ⊆ now.launched := by
  rw [reap]
  refine .bind (exited_does (stable_launched children)) fun finished => .given fun among => ?_
  have stable : Stable fun now => Gone finished now ∧ children ⊆ now.launched := Framed.stable (show Framed "" _ from fun a b holds apart =>
    ⟨framed_gone finished "" a b holds.1 apart,framed_launched children "" a b holds.2 apart⟩)
  refine .of (.bind (forM_does stable fun id member => reapTask_does member (framed_launched children id)) fun _ => ?_)
    fun now _ here => ⟨fun id member => ⟨here.2 (among member),here.1 id member⟩,here.2⟩
  exact .value stable fun _ _ here id member => here.2 (List.mem_of_mem_filter member)

theorem turn_does {request : Option Request} :
    Does (fun now => children ⊆ now.launched) (turn children request) fun rest now => rest ⊆ now.launched := by
  rw [turn]
  refine .bind reap_does fun rest => ?_
  split
  · exact .value (stable_launched rest) fun _ _ here => here
  · rename_i request
    refine .bind answer_does fun result => ?_
    obtain ⟨rest,outcome⟩ := result
    have stable : Stable fun now => rest ⊆ now.launched ∧ Reported request outcome now :=
      (stable_launched rest).and (stable_reported request outcome)
    refine .tryAct stable (fun _ _ here => here.2) (fun now => rest ⊆ now.launched) ?_
      (.value (stable_launched rest) fun _ _ here => here) fun _ => .value stable fun _ _ here => here.1
    rintro now after _ here ⟨⟩
    exact here.1

theorem turns_does {requests : List (Option Request)} :
    Does (fun now => children ⊆ now.launched) (turns children requests) fun rest now => rest ⊆ now.launched := by
  induction requests generalizing children with
  | nil => exact .value (stable_launched children) fun _ _ here => here
  | cons request rest ih => exact .bind turn_does fun _ => ih

theorem awaitChildren_does :
    Does (fun now => children ⊆ now.launched) (awaitChildren children rounds) fun _ _ => True := by
  induction rounds generalizing children with
  | zero => exact .value (stable_launched children) fun _ _ _ => trivial
  | succ rounds ih =>
    rw [awaitChildren]
    split
    · exact .value (stable_launched children) fun _ _ _ => trivial
    · exact .bind reap_does fun _ => ih

theorem shutdown_does :
    Does (fun now => children ⊆ now.launched) (shutdown children rounds) fun _ _ => True := by
  have stable := stable_launched children
  rw [shutdown]
  refine .bind (forM_does stable fun id _ => ?_) fun _ => awaitChildren_does
  rw [writeCancel]
  refine .pass stable (fun _ => trivial) (fun _ _ executed => execute_later executed trivial) ?_
  exact .last (.pass stable (fun _ => trivial) (fun _ _ executed => execute_later executed trivial) (.value stable fun _ _ here => here))

theorem serve_does (session : Session) : Does (fun _ => True) (serve session) fun _ _ => True := by
  rw [serve]
  refine .act stable_any (fun _ _ _ => trivial) (fun now => now.alive = []) ?_ ?_
  · rintro now after _ _ ⟨⟩
    rfl
  refine .bind recover_does fun _ => .of ?_ fun now _ _ => List.nil_subset now.launched
  exact .bind turns_does fun _ => shutdown_does

/-! ### Runs -/

abbrev Entry := Record Session World (Except Failure Unit)

theorem run_kept {log : List Entry} (run : Run execute .io Meanwhile code Fresh log world) : Kept world := by
  induction run with
  | initial state fresh =>
    have none_ : ∀ id, stateOf id state = none := fun id => by
      rw [stateOf,fresh.tasks]
      rfl
    refine ⟨by simp [fresh.launched],by simp [fresh.launched],by simp [fresh.alive],?_,?_,?_,by simp [fresh.observed],
      by simp [fresh.observed],by simp [fresh.replies]⟩
    · exact fun id found there => nomatch (none_ id).symm.trans there
    · exact fun id found there => nomatch (none_ id).symm.trans there
    · exact fun id found there => nomatch (none_ id).symm.trans there
  | disturb _ changed ih => exact ih.later changed.later
  | call _ session carries ih =>
    exact (carries.meets (serve_does session _ ih trivial) ih (fun _ _ kept step => kept.later step.later)
      fun _ _ _ _ kept needs executed => kept.execute needs executed).1

omit [Wire] in
/-- Recovery launches nothing. -/
theorem recover_launches : Keeps (fun _ => True) (fun statement => ∀ id, statement ≠ .launch id) recover fun _ => True := by
  have written : ∀ state, Keeps (fun _ => True) (fun statement => ∀ id, statement ≠ .launch id) (writeState state) fun _ => True := by
    simp [writeState]
  simp only [recover,ids,keeps_bind,keeps_query]
  refine fun _ _ found _ => keeps_forM fun id => ?_
  simp only [recoverTask,readState,hasReceipt,keeps_bind,keeps_query]
  intro _ _ state _
  split
  · simp only [keeps_bind,keeps_query]
    intro _ _ has _
    split
    · simp only [Functor.discard,map_const,Function.comp_apply,keeps_map,updateReceipt,keeps_bind,keeps_query]
      intro _ _ receipt _
      split
      · exact keeps_pure.mpr trivial
      · simp only [clock,keeps_bind,keeps_query,keeps_pure]
        exact fun _ _ now _ => written _
    · simp only [interrupt,clock,keeps_bind,keeps_query]
      exact fun _ _ now _ => written _
  · exact keeps_pure.mpr trivial

/-- What the tasks of a workspace come to. -/
structure Orderly (world : World) : Prop where
  /-- No task is launched twice. -/
  once : world.launched.Nodup
  /-- A task keeps its request and, once it has ended, its phase. -/
  final : world.observed.Pairwise Follows
  shown : ∀ id state, stateOf id world = some state → state ∈ world.observed
  /-- A start is answered with a task of that request only. -/
  answered : ∀ start owner reply, (.start start owner,.ok reply) ∈ world.replies → ∀ state ∈ reply.states, Belongs start state
  succeeded : ∀ state ∈ world.observed, state.phase = .succeeded →
    ∃ receipt, receiptOf state.taskId world = some receipt ∧ receipt.cleanupVerified = true ∧ receipt.exitCode = some 0

theorem launched_once {log : List Entry} (run : Run execute .io Meanwhile code Fresh log world) :
    Orderly world ∧ Keeps (fun _ => True) (fun statement => ∀ id, statement ≠ .launch id) recover fun _ => True := by
  have kept := run_kept run
  refine ⟨⟨kept.once,kept.final,kept.shown,fun start owner reply member state there => ?_,fun state member success => ?_⟩,recover_launches⟩
  · obtain ⟨named,digest⟩ := kept.answered start owner reply member state there
    exact ⟨named,digest⟩
  · obtain ⟨now,current,follows⟩ := kept.seen state member
    have named := kept.named _ now current
    have phase : now.phase = .succeeded := ((follows named).2 (by simp [success,isOpen])).trans success
    rcases kept.ended _ now current (by simp [phase,isOpen]) with ⟨receipt,found,same⟩ | ⟨_,_,other | other⟩
    · exact ⟨receipt,named ▸ found,receipt.succeeded (same.symm.trans phase)⟩
    · exact nomatch other.symm.trans phase
    · exact nomatch other.1.symm.trans phase
end

end

/-! ### A task that succeeds after its manager is gone -/

def sampleStart : TaskStart := ⟨none,"tests","src",[],"run tests",[],none⟩

@[reducible] def sampleWire : Wire where
  digestJson _ := "sha256:start"
  callText _ := ""
  parseCall _ := none
  parseStart _ := none
  recordBytes _ := 0

def empty : World where
  now := 1
  nanos := 1
  runtimeImage := "runtime"
  located _ := .ok true
  snapshot _ := .ok "sha256:source"
  tasks := .empty
  stages := []
  alive := []
  launched := []
  observed := []
  replies := []

def sampleReceipt : Receipt := ⟨some 0,none,true,false,false⟩

def starting : Session := ⟨[some (.start sampleStart none)],0⟩
def asking : Session := ⟨[some (.status "tests"),some (.stop "tests"),some (.start sampleStart none)],0⟩

section
attribute [local instance] sampleWire

/-- The first manager is cut off after its reply. -/
def begun : World := (Sequenced.advanced execute 24 (code starting) empty).2

/-- The supervisor ends. -/
def ended : World :=
  let written := { begun with
    tasks := begun.tasks.update (fun task => key task = "tests") (fun task => { task with receipt := some sampleReceipt }) fun _ => rfl }
  { written with alive := written.alive.filter (· ≠ "tests") }

def asked : World := (Sequenced.advanced execute 60 (code asking) ended).2

theorem asked_run : ∃ log, Run execute .io Meanwhile code Fresh log asked := by
  have first : Run execute .io Meanwhile code Fresh _ begun :=
    (Run.initial empty ⟨rfl,rfl,rfl,rfl,rfl⟩).call starting (Sequenced.advanced_carries 24 (code starting) empty)
  have written := first.disturb (.receipt begun "tests" sampleReceipt (by decide +kernel) (by decide +kernel))
  exact ⟨_,(written.disturb (.exit _ "tests")).call asking (Sequenced.advanced_carries 60 (code asking) ended)⟩

theorem tests_once : Orderly asked ∧ asked.launched = ["tests"] ∧ (asked.observed.map State.phase).head? = some .succeeded ∧
    asked.replies.length = 4 := by
  obtain ⟨log,run⟩ := asked_run
  exact ⟨(launched_once run).1,by decide +kernel,by decide +kernel,by decide +kernel⟩
end

end Proofstorm.Tasks
