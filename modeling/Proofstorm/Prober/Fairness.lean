import Proofstorm.Prober.Turns

/-!
Turns are fair and slots are bounded. A dispatch passes over cells that have no
slot or nothing due, and the cell whose batch it takes goes behind all others, so
that a cell with a slot and something due comes before every cell that had a turn
since (`Ahead`). The jobs in flight are those that were given out and not
completed, whatever became of their cells.
-/
namespace Proofstorm.Prober

section
variable {scheduler : Scheduler} {cell : Cell} {nowMillis : Nat}

/-! ### Batches -/

/-- A batch is no larger than the room there was, and every target of it was due. -/
theorem Cell.drain_due (named : ∀ component (target : ScheduledTarget), cell.targets[component]? = some target →
      target.probe.component = component) {room : Nat} {due left : Heap Due} {batch : List Target}
    (drained : cell.drain nowMillis room due = (some batch,left)) :
    batch.length ≤ room ∧ ∀ probe ∈ batch, ∃ entry ∈ due, entry.component = probe.component ∧ entry.millis ≤ nowMillis := by
  induction room generalizing due batch with
  | zero =>
    simp only [drain,Prod.mk.injEq,Option.some.injEq] at drained
    obtain ⟨rfl,rfl⟩ := drained
    simp
  | succ room ih =>
    rw [drain] at drained
    split at drained
    · simp only [Prod.mk.injEq,Option.some.injEq] at drained
      obtain ⟨rfl,rfl⟩ := drained
      simp
    · rename_i entry rest popped
      split at drained
      · rename_i soon
        split at drained
        · simp at drained
        · rename_i target found
          obtain ⟨more,tail,rfl⟩ : ∃ more, cell.drain nowMillis room rest = (some more,left) ∧ batch = target.probe :: more := by
            cases inner : cell.drain nowMillis room rest with
            | mk more heap =>
              rw [inner] at drained
              cases more <;> simp_all
          obtain ⟨small,from_due⟩ := ih tail
          refine ⟨Nat.succ_le_succ small,?_⟩
          rintro probe (_ | ⟨_,member⟩)
          · exact ⟨entry,(Heap.mem_pop popped).mpr (.inl rfl),(named _ _ found).symm,soon⟩
          · obtain ⟨other,there,same⟩ := from_due probe member
            exact ⟨other,(Heap.mem_pop popped).mpr (.inr there),same⟩
      · simp only [Prod.mk.injEq,Option.some.injEq] at drained
        obtain ⟨rfl,rfl⟩ := drained
        simp

/-- Where the batch is empty nothing is due. -/
theorem Cell.not_due_of_drain_nil {room : Nat} {due left : Heap Due}
    (drained : cell.drain nowMillis (room + 1) due = (some [],left)) : ∀ entry ∈ due, nowMillis < entry.millis := by
  rw [drain] at drained
  split at drained
  · rename_i empty
    intro entry member
    obtain ⟨entries,ordered⟩ := due
    cases entries with
    | nil => cases member
    | cons first rest => simp [Heap.pop] at empty
  · rename_i first rest popped
    split at drained
    · split at drained
      · simp at drained
      · simp [Prod.ext_iff] at drained
    · rename_i late
      intro entry member
      have least : first ≤ entry := by
        rcases (Heap.mem_pop popped).mp member with rfl | later
        · exact le_refl _
        · exact Heap.le_of_pop popped later
      have millis : first.millis ≤ entry.millis := by
        rcases Prod.Lex.le_iff.mp least with before | ⟨same,_⟩
        · exact before.le
        · exact same.le
      omega

/-! ### One dispatch -/

/-- The cell has a slot for a batch, and something is due. -/
def Scheduler.Eligible (scheduler : Scheduler) (nowMillis : Nat) (key : String) : Prop :=
  scheduler.busy key < maxBatchesPerWorker ∧
    ∃ cell, scheduler.cells[key]? = some cell ∧ ∃ entry ∈ cell.due, entry.millis ≤ nowMillis

/-- The turns of a dispatch: so many cells were passed over, and then one gave a
    batch and went to the end, or none did. -/
def Scheduler.Turned (scheduler : Scheduler) (nowMillis turns : Nat) : Option Job → Scheduler → Prop
  | none, after => ∃ passed rest, scheduler.order = passed ++ rest ∧ passed.length = turns ∧
      after.order = rest ++ passed ∧ ∀ key ∈ passed, ¬ scheduler.Eligible nowMillis key
  | some job, after => ∃ passed key rest, scheduler.order = passed ++ key :: rest ∧ passed.length < turns ∧
      after.order = rest ++ passed ++ [key] ∧ (∀ key ∈ passed, ¬ scheduler.Eligible nowMillis key) ∧
      job.identity.instanceKey = key ∧ scheduler.Eligible nowMillis key

theorem Scheduler.eligible_congr {turned : Scheduler} (cells : turned.cells = scheduler.cells)
    (inflight : turned.inflight = scheduler.inflight) {key : String} :
    turned.Eligible nowMillis key ↔ scheduler.Eligible nowMillis key := by
  rw [Eligible,Eligible,busy,busy,cells,inflight]

/-- A turn that passes a cell over, and what comes of the turns that are left. -/
theorem Scheduler.Turned.pass {turned after : Scheduler} {key : String} {rest : List String} {turns : Nat} {result : Option Job}
    (order : scheduler.order = key :: rest) (same : turned = { scheduler with order := rest ++ [key] })
    (few : turns ≤ rest.length) (idle : ¬ scheduler.Eligible nowMillis key)
    (later : turned.Turned nowMillis turns result after) : scheduler.Turned nowMillis (turns + 1) result after := by
  have eligible : ∀ other, turned.Eligible nowMillis other ↔ scheduler.Eligible nowMillis other := fun other => by
    rw [same]
    exact eligible_congr rfl rfl
  have turned_order : turned.order = rest ++ [key] := by rw [same]
  have extend : ∀ {passed : List String}, (∀ other ∈ passed, ¬ turned.Eligible nowMillis other) →
      ∀ other ∈ key :: passed, ¬ scheduler.Eligible nowMillis other := by
    intro passed all other member
    rcases List.mem_cons.mp member with rfl | member
    · exact idle
    · exact fun ready => all other member ((eligible other).mpr ready)
  cases result with
  | none =>
    obtain ⟨passed,left,split,length,after_order,all⟩ := later
    rw [turned_order] at split
    obtain ⟨more,rest_eq,left_eq⟩ : ∃ more, rest = passed ++ more ∧ left = more ++ [key] := by
      rcases List.append_eq_append_iff.mp split with ⟨more,passed_eq,end_eq⟩ | ⟨more,rest_eq,left_eq⟩
      · have empty : more = [] := by
          have := congrArg List.length passed_eq
          rw [List.length_append] at this
          exact List.length_eq_zero_iff.mp (by omega)
        subst empty
        exact ⟨[],by simpa using passed_eq.symm,by simpa using end_eq.symm⟩
      · exact ⟨more,rest_eq,left_eq⟩
    exact ⟨key :: passed,more,by rw [order,rest_eq]; rfl,by rw [List.length_cons,length],
      by rw [after_order,left_eq]; simp,extend all⟩
  | some job =>
    obtain ⟨passed,taken,left,split,length,after_order,all,named,ready⟩ := later
    rw [turned_order] at split
    obtain ⟨more,rest_eq,left_eq⟩ : ∃ more, rest = passed ++ taken :: more ∧ left = more ++ [key] := by
      rcases List.append_eq_append_iff.mp split with ⟨more,passed_eq,_⟩ | ⟨more,rest_eq,left_eq⟩
      · have := congrArg List.length passed_eq
        rw [List.length_append] at this
        omega
      · cases more with
        | nil =>
          have := congrArg List.length rest_eq
          rw [List.length_append,List.length_nil] at this
          omega
        | cons first more =>
          obtain ⟨rfl,rfl⟩ := List.cons.inj left_eq
          exact ⟨more,rest_eq,rfl⟩
    exact ⟨key :: passed,taken,more,by rw [order,rest_eq]; rfl,by rw [List.length_cons]; omega,
      by rw [after_order,left_eq]; simp,extend all,named,(eligible taken).mp ready⟩

theorem Scheduler.turns_turned (ready : scheduler.Ready) (keyed : ∀ {key : String} {cell : Cell},
      scheduler.cells[key]? = some cell → cell.identity.instanceKey = key) (turns : Nat) (few : turns ≤ scheduler.order.length)
    {result : Option Job} {after : Scheduler} {nextId : Nat}
    (called : scheduler.turns nowMillis nextId turns = .ok (result,after)) : scheduler.Turned nowMillis turns result after := by
  induction turns generalizing scheduler with
  | zero =>
    cases called
    exact ⟨[],after.order,rfl,rfl,by simp,by simp⟩
  | succ turns ih =>
    rw [Scheduler.turns] at called
    split at called
    · rename_i empty
      rw [empty] at few
      cases few
    · rename_i key rest order
      rw [order,List.length_cons] at few
      have turn : (rest ++ [key]).Perm scheduler.order := order ▸ List.perm_append_singleton key rest
      have next : ({ scheduler with order := rest ++ [key] } : Scheduler).Ready :=
        ⟨fun other member => ready.listed other (turn.subset member),ready.cell⟩
      have later := @ih { scheduler with order := rest ++ [key] } next keyed (by simp; omega)
      dsimp only at called
      split at called
      · rename_i full
        exact .pass order rfl (by omega) (fun eligible => absurd eligible.1 (Nat.not_lt.mpr full)) (later called)
      · rename_i room
        obtain ⟨cell,found⟩ := BTreeMap.mem_iff.mp (ready.listed key (order ▸ List.mem_cons_self))
        rw [found] at called
        have known : ∀ entry ∈ cell.due, entry.component ∈ cell.targets := fun entry member =>
          (ready.cell found).due _ ((Heap.count_pos _).mpr ⟨entry,member,rfl⟩)
        obtain ⟨batch,due,drained⟩ := Cell.drain_some nowMillis maxBatchTargets known
        simp only [drained] at called
        cases batch with
        | nil =>
          have same := Cell.drain_nil drained
          subst same
          simp only [BTreeMap.insert_get found] at called
          refine .pass order rfl (by omega) ?_ (later called)
          rintro ⟨_,other,there,entry,member,soon⟩
          cases found.symm.trans there
          have late := Cell.not_due_of_drain_nil drained entry member
          omega
        | cons first others =>
          simp only [bind_ok] at called
          obtain ⟨generations,_,same⟩ := called
          cases same
          obtain ⟨_,due⟩ := Cell.drain_due (ready.cell found).named drained
          obtain ⟨entry,member,_,soon⟩ := due first List.mem_cons_self
          exact ⟨[],key,rest,order,Nat.succ_pos _,by simp,by simp,keyed found,Nat.not_le.mp room,
            cell,found,entry,member,soon⟩

/-- A dispatch is refused for want of a slot or of a number, or takes its turns. -/
theorem Sound.dispatch_turned {jobs : List Job} (sound : Sound scheduler jobs) {result : Option Job} {after : Scheduler}
    (called : scheduler.dispatch nowMillis = .ok (result,after)) :
    (result = none ∧ after = scheduler ∧
      (maxInflightBatches ≤ scheduler.inflight.size ∨ 2 ^ 64 ≤ scheduler.sequence + 1)) ∨
    scheduler.inflight.size < maxInflightBatches ∧ scheduler.Turned nowMillis scheduler.order.length result after := by
  rw [Scheduler.dispatch] at called
  split at called
  · rename_i full
    cases called
    exact .inl ⟨rfl,rfl,.inl full⟩
  · rename_i room
    rw [nextSequence] at called
    split_ifs at called with more
    · exact .inr ⟨Nat.not_le.mp room,Scheduler.turns_turned sound.dispatches sound.keyed _ (Nat.le_refl _) called⟩
    · cases called
      exact .inl ⟨rfl,rfl,.inr (Nat.not_lt.mp more)⟩

/-! ### The queue -/

/-- One key comes before another, which may not be there. -/
def Ahead (order : List String) (one other : String) : Prop := ∃ front back, order = front ++ one :: back ∧ other ∉ front

variable {order : List String} {one other : String}

theorem Ahead.append (ahead : Ahead order one other) (last : String) :
    Ahead (order ++ [last]) one other := by
  obtain ⟨front,back,rfl,apart⟩ := ahead
  exact ⟨front,back ++ [last],by simp,apart⟩

theorem Ahead.filter {removed : String} (ahead : Ahead order one other)
    (stays : one ≠ removed) : Ahead (order.filter fun key => key ≠ removed) one other := by
  obtain ⟨front,back,rfl,apart⟩ := ahead
  refine ⟨front.filter fun key => key ≠ removed,back.filter fun key => key ≠ removed,?_,fun member => ?_⟩
  · rw [List.filter_append,List.filter_cons_of_pos (by simpa using stays)]
  · exact apart (List.mem_filter.mp member).1

/-- A key that does not come before the taken one stays where it is, and the taken one goes behind it. -/
theorem Ahead.taken {passed rest : List String} {key : String}
    (distinct : (passed ++ key :: rest).Nodup) (ahead : Ahead (passed ++ key :: rest) one other) (later : one ∉ passed)
    (apart : one ≠ key) : key ≠ other ∧ Ahead (rest ++ passed ++ [key]) one other := by
  obtain ⟨front,back,split,before⟩ := ahead
  have behind : ∃ between, front = passed ++ key :: between ∧ rest = between ++ one :: back := by
    rcases List.append_eq_append_iff.mp split with ⟨more,front_eq,rest_eq⟩ | ⟨more,passed_eq,_⟩
    · cases more with
      | nil => exact absurd (List.cons.inj rest_eq).1.symm apart
      | cons first between =>
        obtain ⟨rfl,rfl⟩ := List.cons.inj rest_eq
        exact ⟨between,front_eq,rfl⟩
    · cases more with
      | nil =>
        simp only [List.append_nil] at passed_eq
        subst passed_eq
        have same := List.append_cancel_left split
        exact absurd (List.cons.inj same).1.symm apart
      | cons first more =>
        have member : one ∈ passed := by
          rename_i tail
          obtain ⟨rfl,_⟩ := List.cons.inj tail
          rw [passed_eq]
          simp
        exact absurd member later
  obtain ⟨between,rfl,rfl⟩ := behind
  refine ⟨fun same => before (by simp [same]),between,back ++ passed ++ [key],by simp,fun member => before ?_⟩
  exact List.mem_append_right _ (List.mem_cons_of_mem _ member)
end

/-! ### Slots -/

section
variable {scheduler : Scheduler} {log : List Moment}

/-- The job was completed, or its transport cancelled. -/
def Completed (log : List Moment) (id : Nat) : Prop :=
  ∃ moment ∈ log, ∃ job response nowMillis, moment.action = .complete job response nowMillis ∧ job.id = id

theorem Scheduler.busy_eq (scheduler : Scheduler) (key : String) :
    scheduler.busy key = scheduler.inflight.toList.countP fun entry => entry.2 = key := by
  rw [busy,BTreeMap.values_eq,List.countP_map]
  rfl

variable {after : Scheduler}

variable {id nowMillis : Nat} {moment : Moment} {job : Job} {jobs : List Job} {one other : String}

theorem Scheduler.busy_insert {key : String} (new : id ∉ scheduler.inflight)
    (inflight : after.inflight = scheduler.inflight.insert id key) (other : String) :
    after.busy other = scheduler.busy other + if key = other then 1 else 0 := by
  rw [busy_eq,busy_eq,inflight,(BTreeMap.toList_insert key new).countP_eq,List.countP_cons]
  simp

theorem Scheduler.busy_erase (inflight : after.inflight = scheduler.inflight.erase id)
    (other : String) : after.busy other ≤ scheduler.busy other := by
  rw [busy_eq,busy_eq,inflight,(BTreeMap.toList_erase _ id).countP_eq,List.countP_filter]
  exact List.countP_mono_left fun entry _ both => by
    simp only [Bool.and_eq_true,decide_eq_true_eq] at both ⊢
    exact both.1

/-- What the slots hold: the jobs given out and not completed, so many at most. -/
structure Slotted (scheduler : Scheduler) (log : List Moment) : Prop where
  total : scheduler.inflight.size ≤ maxInflightBatches
  each : ∀ key, scheduler.busy key ≤ maxBatchesPerWorker
  held : ∀ id key, scheduler.inflight[id]? = some key ↔
    ∃ job ∈ jobsOf log, ¬ Completed log id ∧ job.id = id ∧ job.identity.instanceKey = key
  given : ∀ id, Completed log id → ∃ job ∈ jobsOf log, job.id = id

theorem completed_cons (other : ∀ job response nowMillis, moment.action ≠ .complete job response nowMillis) :
    Completed (moment :: log) id ↔ Completed log id := by
  constructor
  · rintro ⟨later,member,job,response,nowMillis,same,rfl⟩
    rcases List.mem_cons.mp member with rfl | member
    · exact absurd same (other _ _ _)
    · exact ⟨later,member,job,response,nowMillis,same,rfl⟩
  · rintro ⟨later,member,rest⟩
    exact ⟨later,List.mem_cons_of_mem _ member,rest⟩

/-- A call that gives out no job and completes none. -/
theorem Slotted.quiet (slotted : Slotted scheduler log)
    (inflight : after.inflight = scheduler.inflight) (none : moment.dispatched = none)
    (other : ∀ job response nowMillis, moment.action ≠ .complete job response nowMillis) : Slotted after (moment :: log) := by
  have jobs : jobsOf (moment :: log) = jobsOf log := by rw [jobsOf_cons,none]; rfl
  refine ⟨?_,fun key => ?_,fun id key => ?_,fun id completed => ?_⟩
  · rw [inflight]
    exact slotted.total
  · have same : after.busy key = scheduler.busy key := by rw [Scheduler.busy,inflight]; rfl
    rw [same]
    exact slotted.each key
  · rw [inflight,jobs,completed_cons other]
    exact slotted.held id key
  · rw [jobs]
    exact slotted.given id ((completed_cons other).mp completed)

theorem Slotted.dispatch (slotted : Slotted scheduler log)
    (sound : Sound scheduler (jobsOf log)) (room : scheduler.inflight.size < maxInflightBatches)
    (free : scheduler.Eligible nowMillis job.identity.instanceKey) (number : job.id = scheduler.sequence + 1)
    (inflight : after.inflight = scheduler.inflight.insert job.id job.identity.instanceKey) :
    Slotted after (⟨scheduler,.dispatch nowMillis,some job,after⟩ :: log) := by
  have other : ∀ one response millis, Action.dispatch nowMillis ≠ .complete one response millis := by
    rintro _ _ _ ⟨⟩
  have jobs : jobsOf (⟨scheduler,.dispatch nowMillis,some job,after⟩ :: log) = job :: jobsOf log := rfl
  have past : ∀ one ∈ jobsOf log, one.id ≠ job.id := fun one member same => by
    have := (sound.job one member).past
    omega
  have new : job.id ∉ scheduler.inflight := by
    intro taken
    obtain ⟨key,found⟩ := BTreeMap.mem_iff.mp taken
    obtain ⟨one,member,_,same,_⟩ := (slotted.held job.id key).mp found
    exact past one member same
  have incomplete : ¬ Completed log job.id := by
    intro completed
    obtain ⟨one,member,same⟩ := slotted.given job.id completed
    exact past one member same
  refine ⟨?_,fun key => ?_,fun id key => ?_,fun id completed => ?_⟩
  · rw [inflight]
    exact Std.ExtTreeMap.size_insert_le.trans room
  · rw [Scheduler.busy_insert new inflight]
    split
    · rename_i same
      exact same ▸ free.1
    · exact slotted.each key
  · rw [inflight,BTreeMap.get_insert,jobs,completed_cons other]
    by_cases same : job.id = id
    · subst same
      rw [if_pos rfl]
      constructor
      · intro found
        exact ⟨job,List.mem_cons_self,incomplete,rfl,Option.some.inj found⟩
      · rintro ⟨one,member,_,same,named⟩
        rcases List.mem_cons.mp member with rfl | member
        · rw [named]
        · exact absurd same (past one member)
    · rw [if_neg same,slotted.held id key]
      constructor
      · rintro ⟨one,member,rest⟩
        exact ⟨one,List.mem_cons_of_mem _ member,rest⟩
      · rintro ⟨one,member,unfinished,alike,named⟩
        rcases List.mem_cons.mp member with rfl | member
        · exact absurd alike same
        · exact ⟨one,member,unfinished,alike,named⟩
  · obtain ⟨one,member,same⟩ := slotted.given id ((completed_cons other).mp completed)
    exact ⟨one,List.mem_cons_of_mem _ member,same⟩

theorem Slotted.complete {response : Option Response}
    (slotted : Slotted scheduler log) (known : job ∈ jobsOf log)
    (inflight : after.inflight = scheduler.inflight.erase job.id) :
    Slotted after (⟨scheduler,.complete job response nowMillis,none,after⟩ :: log) := by
  have jobs : jobsOf (⟨scheduler,.complete job response nowMillis,none,after⟩ :: log) = jobsOf log := rfl
  have completed : ∀ id, Completed (⟨scheduler,.complete job response nowMillis,none,after⟩ :: log) id ↔
      job.id = id ∨ Completed log id := by
    intro id
    constructor
    · rintro ⟨moment,member,one,answer,millis,same,number⟩
      rcases List.mem_cons.mp member with rfl | member
      · cases same
        exact .inl number
      · exact .inr ⟨moment,member,one,answer,millis,same,number⟩
    · rintro (same | ⟨moment,member,rest⟩)
      · exact ⟨_,List.mem_cons_self,job,response,nowMillis,rfl,same⟩
      · exact ⟨moment,List.mem_cons_of_mem _ member,rest⟩
  refine ⟨?_,fun key => ?_,fun id key => ?_,fun id done => ?_⟩
  · rw [inflight]
    exact Std.ExtTreeMap.size_erase_le.trans slotted.total
  · exact (Scheduler.busy_erase inflight key).trans (slotted.each key)
  · rw [inflight,BTreeMap.get_erase,jobs]
    by_cases same : job.id = id
    · rw [if_pos same]
      constructor
      · intro found
        cases found
      · rintro ⟨_,_,unfinished,_⟩
        exact absurd ((completed id).mpr (.inl same)) unfinished
    · rw [if_neg same,slotted.held id key]
      simp only [completed,same,false_or]
  · rw [jobs]
    rcases (completed id).mp done with same | earlier
    · exact ⟨job,known,same⟩
    · exact slotted.given id earlier

theorem Slotted.start : Slotted .default [] := by
  refine ⟨Nat.zero_le _,fun key => ?_,fun id key => ?_,?_⟩
  · show ([] : List String).countP _ ≤ _
    exact Nat.zero_le _
  · simp [Scheduler.default,jobsOf]
  · rintro id ⟨_,member,_⟩
    cases member

/-! ### Runs -/

/-- The job of a moment is of one due batch. -/
theorem Sound.dispatched (sound : Sound scheduler jobs)
    (called : scheduler.dispatch nowMillis = .ok (some job,after)) :
    ∃ cell batch due, scheduler.cells[job.identity.instanceKey]? = some cell ∧
      cell.drain nowMillis maxBatchTargets cell.due = (some batch,due) ∧ job.request.targets = batch ∧
      job.request.components.Nodup ∧ job.id = scheduler.sequence + 1 ∧
      after.inflight = scheduler.inflight.insert job.id job.identity.instanceKey := by
  obtain ⟨_,_,called',dispatches⟩ := Scheduler.dispatch_ok sound.dispatches nowMillis
  cases called.symm.trans called'
  have later := (sound.dispatch dispatches).job job (by simp)
  obtain ⟨key,cell,batch,due,generations,found,drained,_,rfl,_,_,inflight,_⟩ := dispatches
  have named := sound.keyed found
  refine ⟨cell,batch,due,?_,drained,rfl,later.distinct,rfl,?_⟩
  · exact named ▸ found
  · exact inflight.trans (congrArg _ named.symm)

theorem Reached.slotted (reached : Reached scheduler log) : Slotted scheduler log := by
  induction reached with
  | start => exact .start
  | @step scheduler after log action dispatched reached known performed ih =>
    cases action with
    | register identity targets nowMillis =>
      have effect : dispatched = none ∧ after.inflight = scheduler.inflight := by
        rw [Scheduler.perform] at performed
        cases registered : scheduler.register identity targets nowMillis with
        | error code =>
          rw [registered] at performed
          cases performed
          exact ⟨rfl,rfl⟩
        | ok result =>
          rw [registered] at performed
          cases performed
          rcases Scheduler.register_ok registered with same | ⟨_,_,_,same⟩
          · exact ⟨rfl,by rw [same]⟩
          · exact ⟨rfl,by rw [same]⟩
      exact ih.quiet effect.2 effect.1 (by rintro _ _ _ ⟨⟩)
    | remove instanceKey =>
      cases performed
      exact ih.quiet rfl rfl (by rintro _ _ _ ⟨⟩)
    | dispatch nowMillis =>
      have called : scheduler.dispatch nowMillis = .ok (dispatched,after) := performed
      cases dispatched with
      | none =>
        obtain ⟨_,_,called',dispatches⟩ := Scheduler.dispatch_ok reached.sound.dispatches nowMillis
        cases called.symm.trans called'
        exact ih.quiet dispatches.2.2.1 rfl (by rintro _ _ _ ⟨⟩)
      | some job =>
        obtain ⟨_,_,_,_,_,_,_,number,inflight⟩ := reached.sound.dispatched called
        rcases reached.sound.dispatch_turned called with ⟨refused,_⟩ | ⟨room,_,_,_,_,_,_,_,named,eligible⟩
        · cases refused
        · exact ih.dispatch reached.sound room (named ▸ eligible) number inflight
    | complete job response nowMillis =>
      have member : job ∈ jobsOf log := known
      obtain ⟨_,_,called,completes⟩ := Scheduler.complete_ok reached.sound.dispatches
        (reached.sound.job job member).distinct response nowMillis
      have effect : dispatched = none ∧ after.inflight = scheduler.inflight.erase job.id := by
        simp only [Scheduler.perform,called,ok_bind,pure_ok,Prod.mk.injEq] at performed
        obtain ⟨rfl,rfl⟩ := performed
        exact ⟨rfl,completes.2.1⟩
      obtain ⟨rfl,inflight⟩ := effect
      exact ih.complete member inflight

/-- A cell that is there and not dispatched keeps its place before another that has had its turn. -/
theorem Sound.ahead {action : Action} {dispatched : Option Job}
    (sound : Sound scheduler jobs) (known : ∀ job response nowMillis, action = .complete job response nowMillis → job ∈ jobs)
    (performed : scheduler.perform action = .ok (dispatched,after)) (ahead : Ahead scheduler.order one other)
    (stays : one ∈ after.cells) (eligible : ∀ nowMillis, action = .dispatch nowMillis → scheduler.Eligible nowMillis one)
    (passed : ∀ job, dispatched = some job → job.identity.instanceKey ≠ one) :
    (∀ job, dispatched = some job → job.identity.instanceKey ≠ other) ∧ Ahead after.order one other := by
  cases action with
  | register identity targets nowMillis =>
    rw [Scheduler.perform] at performed
    cases registered : scheduler.register identity targets nowMillis with
    | error code =>
      rw [registered] at performed
      cases performed
      exact ⟨by rintro _ ⟨⟩,ahead⟩
    | ok result =>
      rw [registered] at performed
      cases performed
      refine ⟨by rintro _ ⟨⟩,?_⟩
      rcases Scheduler.register_ok registered with same | ⟨_,_,_,same⟩
      · rw [same]
        exact ahead
      · rw [same]
        show Ahead (if _ then _ else _) _ _
        split
        · exact ahead
        · exact ahead.append _
  | remove instanceKey =>
    cases performed
    refine ⟨by rintro _ ⟨⟩,ahead.filter ?_⟩
    obtain ⟨cell,found⟩ := BTreeMap.mem_iff.mp stays
    exact (BTreeMap.of_get_erase found).1
  | dispatch nowMillis =>
    have called : scheduler.dispatch nowMillis = .ok (dispatched,after) := performed
    rcases sound.dispatch_turned called with ⟨rfl,rfl,_⟩ | ⟨_,turned⟩
    · exact ⟨by rintro _ ⟨⟩,ahead⟩
    · cases dispatched with
      | none =>
        obtain ⟨skipped,rest,order,length,after_order,_⟩ := turned
        have nothing : rest = [] := by
          have := congrArg List.length order
          rw [List.length_append] at this
          exact List.length_eq_zero_iff.mp (by omega)
        subst nothing
        rw [after_order,List.nil_append]
        rw [order,List.append_nil] at ahead
        exact ⟨by rintro _ ⟨⟩,ahead⟩
      | some job =>
        obtain ⟨skipped,key,rest,order,_,after_order,idle,rfl,_⟩ := turned
        have distinct := sound.distinct
        rw [order] at ahead distinct
        have later : one ∉ skipped := fun member => idle one member (eligible nowMillis rfl)
        obtain ⟨apart,behind⟩ := ahead.taken distinct later (Ne.symm (passed job rfl))
        rw [after_order]
        exact ⟨by rintro _ ⟨⟩; exact apart,behind⟩
  | complete job response nowMillis =>
    have member := known job response nowMillis rfl
    obtain ⟨_,_,called,completes⟩ := Scheduler.complete_ok sound.dispatches (sound.job job member).distinct response nowMillis
    simp only [Scheduler.perform,called,ok_bind,pure_ok,Prod.mk.injEq] at performed
    obtain ⟨rfl,rfl⟩ := performed
    rw [completes.1]
    exact ⟨by rintro _ ⟨⟩,ahead⟩

/-- The cell is there, and a dispatch finds it with a slot and something due. -/
def Waits (key : String) (moment : Moment) : Prop :=
  key ∈ moment.before.cells ∧ ∀ nowMillis, moment.action = .dispatch nowMillis → moment.before.Eligible nowMillis key

/-- The moment gives out a job of the cell. -/
def Serves (key : String) (moment : Moment) : Prop := ∃ job, moment.dispatched = some job ∧ job.identity.instanceKey = key

/-- After a turn of another cell, and until its own, a cell that waits is before that other. -/
theorem Reached.ahead {between older : List Moment} {turn : Moment} (apart : one ≠ other)
    (reached : Reached scheduler (between ++ turn :: older)) (served : Serves other turn) (stays : one ∈ scheduler.cells)
    (waits : ∀ moment ∈ between, Waits one moment) (unserved : ∀ moment ∈ between, ¬ Serves one moment) :
    Ahead scheduler.order one other := by
  induction between generalizing scheduler with
  | nil =>
    obtain ⟨job,given,named⟩ := served
    cases reached with
    | @step before _ _ action dispatched reached known performed =>
      cases given
      cases action with
      | dispatch nowMillis =>
        rcases reached.sound.dispatch_turned performed with ⟨refused,_⟩ | ⟨_,passed,key,rest,order,_,after_order,_,same,_⟩
        · cases refused
        · obtain rfl : key = other := same.symm.trans named
          have later := (reached.step known performed).sound
          have member := (later.listed one).mpr stays
          have distinct := later.distinct
          rw [after_order] at member distinct
          have there : one ∈ rest ++ passed := by
            rcases List.mem_append.mp member with there | last
            · exact there
            · exact absurd (List.mem_singleton.mp last) apart
          obtain ⟨front,back,split⟩ := List.append_of_mem there
          refine ⟨front,back ++ [key],by rw [after_order,split]; simp,fun before => ?_⟩
          refine (List.nodup_append.mp distinct).2.2 key ?_ key List.mem_cons_self rfl
          rw [split]
          exact List.mem_append_left _ before
      | register identity targets nowMillis =>
        rw [Scheduler.perform] at performed
        split at performed <;> cases performed
      | remove instanceKey => cases performed
      | complete job response nowMillis =>
        simp only [Scheduler.perform,bind_ok,pure_ok,Prod.mk.injEq] at performed
        obtain ⟨_,_,impossible,_⟩ := performed
        cases impossible
  | cons moment between ih =>
    cases reached with
    | @step before _ _ action dispatched reached known performed =>
      have here := waits _ List.mem_cons_self
      have ahead := ih reached here.1 (fun moment member => waits moment (List.mem_cons_of_mem _ member))
        (fun moment member => unserved moment (List.mem_cons_of_mem _ member))
      exact (reached.sound.ahead known.mem performed ahead stays here.2 fun job given same =>
        unserved _ List.mem_cons_self ⟨job,given,same⟩).2

theorem Reached.part {newer rest : List Moment} (reached : Reached scheduler (newer ++ rest)) :
    ∃ earlier, Reached earlier rest := by
  induction newer generalizing scheduler with
  | nil => exact ⟨scheduler,reached⟩
  | cons moment newer ih =>
    cases reached with
    | step reached _ _ => exact ih reached

/-- A moment of a run is one call from a state of it. -/
theorem Reached.at (reached : Reached scheduler log) {moment : Moment} (member : moment ∈ log) :
    ∃ older, Reached moment.before older ∧ moment.action.Known older ∧
      moment.before.perform moment.action = .ok (moment.dispatched,moment.after) := by
  obtain ⟨newer,older,rfl⟩ := List.append_of_mem member
  obtain ⟨_,reached⟩ := reached.part
  cases reached with
  | step reached known performed => exact ⟨older,reached,known,performed⟩

/-- The job takes between one and so many targets of the cell, all of them due. -/
def Job.Batches (job : Job) (before : Scheduler) (nowMillis : Nat) : Prop :=
  1 ≤ job.request.targets.length ∧ job.request.targets.length ≤ maxBatchTargets ∧ job.request.components.Nodup ∧
    ∃ cell, before.cells[job.identity.instanceKey]? = some cell ∧ ∀ probe ∈ job.request.targets,
      (∃ target, cell.targets[probe.component]? = some target ∧ target.probe = probe) ∧
        ∃ entry ∈ cell.due, entry.component = probe.component ∧ entry.millis ≤ nowMillis

/-- A dispatch gives out nothing where all slots are taken, where no cell that has a
    slot has anything due, or where the numbers of the scheduler are used up. -/
def Refuses (before : Scheduler) (nowMillis : Nat) : Prop :=
  maxInflightBatches ≤ before.inflight.size ∨ (∀ key, ¬ before.Eligible nowMillis key) ∨ 2 ^ 64 ≤ before.sequence + 1

/-- Dispatch is bounded and fair in every run: the slots hold the jobs given out and
    not completed, so many of all and of each cell at most; a batch takes between one
    and so many targets that are due; nothing is given out only for a reason; and
    between two turns of one cell every other cell that waited all the time had one. -/
theorem dispatch_fair (reached : Reached scheduler log) :
    (scheduler.inflight.size ≤ maxInflightBatches ∧ (∀ key, scheduler.busy key ≤ maxBatchesPerWorker) ∧
      ∀ id key, scheduler.inflight[id]? = some key ↔
        ∃ job ∈ jobsOf log, ¬ Completed log id ∧ job.id = id ∧ job.identity.instanceKey = key) ∧
    (∀ moment ∈ log, ∀ nowMillis, moment.action = .dispatch nowMillis →
      (∀ job, moment.dispatched = some job → job.Batches moment.before nowMillis) ∧
      (moment.dispatched = none → Refuses moment.before nowMillis)) ∧
    ∀ newer later between turn older one other, log = newer ++ (later :: between ++ turn :: older) → one ≠ other →
      Serves other turn → Serves other later → (∀ moment ∈ later :: between, Waits one moment) →
      ∃ moment ∈ between, Serves one moment := by
  have slotted := reached.slotted
  refine ⟨⟨slotted.total,slotted.each,slotted.held⟩,fun moment member nowMillis dispatch => ?_,?_⟩
  · obtain ⟨older,reached,_,performed⟩ := reached.at member
    rw [dispatch] at performed
    have called : moment.before.dispatch nowMillis = .ok (moment.dispatched,moment.after) := performed
    have turned := reached.sound.dispatch_turned called
    constructor
    · intro job given
      rw [given] at called turned
      obtain ⟨cell,batch,due,found,drained,targets,distinct,_⟩ := reached.sound.dispatched called
      have ready := reached.sound.ready found
      obtain ⟨small,from_due⟩ := Cell.drain_due ready.named drained
      obtain ⟨_,from_cell⟩ := Cell.queued_drain ready.named drained
      rw [Job.Batches,targets]
      refine ⟨?_,small,distinct,cell,found,fun probe member => ⟨from_cell probe member,from_due probe member⟩⟩
      cases batch with
      | cons => exact Nat.succ_pos _
      | nil =>
        rcases turned with ⟨refused,_⟩ | ⟨_,_,_,_,_,_,_,_,named,_,other,there,entry,listed,soon⟩
        · cases refused
        · cases found.symm.trans (named ▸ there)
          have late := Cell.not_due_of_drain_nil drained entry listed
          omega
    · intro none
      rw [none] at turned
      rcases turned with ⟨_,_,full | exhausted⟩ | ⟨_,passed,rest,order,length,_,idle⟩
      · exact .inl full
      · exact .inr (.inr exhausted)
      · refine .inr (.inl fun key eligible => idle key ?_ eligible)
        obtain ⟨_,cell,found,_⟩ := eligible
        have listed := (reached.sound.listed key).mpr (BTreeMap.mem_of_get found)
        have nothing : rest = [] := by
          have := congrArg List.length order
          rw [List.length_append] at this
          exact List.length_eq_zero_iff.mp (by omega)
        rwa [order,nothing,List.append_nil] at listed
  · intro newer later between turn older one other same apart first second waits
    subst same
    obtain ⟨after,ended⟩ := reached.part
    by_contra unserved
    cases ended with
    | @step before _ _ action dispatched begun known performed =>
      have here := waits _ List.mem_cons_self
      have ahead := begun.ahead apart first here.1 (fun moment member => waits moment (List.mem_cons_of_mem _ member))
        fun moment member serves => unserved ⟨moment,member,serves⟩
      obtain ⟨job,given,named⟩ := second
      have unturned : ∀ job, dispatched = some job → job.identity.instanceKey ≠ one := by
        intro job' given' same
        cases given.symm.trans given'
        exact apart (same.symm.trans named)
      cases action with
      | dispatch nowMillis =>
        cases given
        rcases begun.sound.dispatch_turned performed with ⟨refused,_⟩ | ⟨_,passed,key,rest,order,_,_,idle,same,_⟩
        · cases refused
        · obtain rfl : key = other := same.symm.trans named
          have distinct := begun.sound.distinct
          rw [order] at ahead distinct
          have behind : one ∉ passed := fun member => idle one member (here.2 nowMillis rfl)
          exact (ahead.taken distinct behind apart).1 rfl
      | register identity targets nowMillis =>
        cases given
        rw [Scheduler.perform] at performed
        split at performed <;> cases performed
      | remove instanceKey =>
        cases given
        cases performed
      | complete job' response nowMillis =>
        cases given
        simp only [Scheduler.perform,bind_ok,pure_ok,Prod.mk.injEq] at performed
        obtain ⟨_,_,impossible,_⟩ := performed
        cases impossible
end

theorem dispatch_fair_restarted : (follow restarted).1.inflight.size ≤ maxInflightBatches ∧
    (follow restarted).1.busy "cell" ≤ maxBatchesPerWorker ∧ (follow restarted).2.length = 5 :=
  have fair := dispatch_fair (follow_reached restarted)
  ⟨fair.1.1,fair.1.2.1 "cell",by decide +kernel⟩

/-! ### The numbers run out -/

def sampleTargets : List ScheduledTarget := [sampleTarget "a" "runtime"]

/-- A scheduler of one cell, registered with the number. -/
def registered (number : Nat) : Scheduler :=
  ⟨(∅ : BTreeMap String Cell).insert "cell" (.fresh sampleIdentity (byName sampleTargets) number 0),["cell"],∅,number⟩

theorem register_registered {number : Nat} (room : number + 1 < 2 ^ 64) :
    (⟨∅,[],∅,number⟩ : Scheduler).perform (.register sampleIdentity sampleTargets 0) = .ok (none,registered (number + 1)) := by
  have admitted : admitChunks sampleIdentity [] (sampleTargets.toChunks maxBatchTargets) = .ok () := by decide +kernel
  have next : nextSequence number = some (number + 1) := if_pos room
  have identity : ensure (ε := String) (dnsLabel sampleIdentity.instanceKey ∧ bounded sampleIdentity.incarnation ∧
      bounded sampleIdentity.revisionDigest ∧ bounded sampleIdentity.workerUid) "invalid_probe_identity" = .ok ⟨⟩ :=
    ensure_of (by decide +kernel)
  have absent : (∅ : BTreeMap String Cell)[sampleIdentity.instanceKey]? = none := Std.ExtTreeMap.getElem?_empty
  simp only [Scheduler.perform,Scheduler.register,absent,next]
  rw [identity,admitted]
  rfl

theorem reached_registered (number : Nat) (room : number + 1 < 2 ^ 64) : ∃ log, Reached (registered (number + 1)) log := by
  have known : ∀ log, Action.Known log (.register sampleIdentity sampleTargets 0) := fun _ => trivial
  induction number with
  | zero => exact ⟨_,.step .start (known _) (register_registered room)⟩
  | succ number ih =>
    obtain ⟨log,reached⟩ := ih (by omega)
    have removed : (registered (number + 1)).remove "cell" = ⟨∅,[],∅,number + 1⟩ := rfl
    have emptied := reached.step (show Action.Known log (.remove "cell") from trivial)
      (show _ = Except.ok (none,(registered (number + 1)).remove "cell") from rfl)
    rw [removed] at emptied
    exact ⟨_,emptied.step (known _) (register_registered room)⟩

/-- With the last number given away, a dispatch gives out nothing though every slot is
    free and a target is due. -/
theorem dispatch_exhausted : ∃ scheduler log moment, Reached scheduler log ∧ moment ∈ log ∧ moment.action = .dispatch 0 ∧
    moment.dispatched = none ∧ moment.before.inflight.size < maxInflightBatches ∧ moment.before.Eligible 0 "cell" := by
  obtain ⟨log,reached⟩ := reached_registered (2 ^ 64 - 2) (by decide)
  have refused : (registered (2 ^ 64 - 2 + 1)).dispatch 0 = .ok (none,registered (2 ^ 64 - 2 + 1)) := by
    rw [Scheduler.dispatch,if_neg (by decide)]
    rfl
  have tried := reached.step (show Action.Known log (.dispatch 0) from trivial) refused
  refine ⟨_,_,_,tried,List.mem_cons_self,rfl,rfl,by decide,by decide,?_⟩
  refine ⟨_,Std.ExtTreeMap.getElem?_insert_self,⟨0,"a"⟩,?_,Nat.le_refl _⟩
  decide
end Proofstorm.Prober
