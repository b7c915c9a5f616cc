import Proofstorm.Bridge.Passes

/-!
What happens to the records of a mailbox, whoever asks: a record keeps its call and
its digest, and stays claimed and answered once it is; there are never more of
them than the grant allows. A claim is fresh once.
-/
namespace Proofstorm.Bridge
open Proofstorm.Core (Json)

/-! ### Records -/

structure Record.Later (a b : Record) : Prop where
  call : b.call = a.call
  digest : b.digest = a.digest
  claimed : a.claimed = true → b.claimed = true
  receipt : ∀ receipt, a.receipt = some receipt → b.receipt = some receipt

theorem Record.Later.refl (record : Record) : record.Later record := ⟨rfl,rfl,id,fun _ => id⟩

theorem Record.Later.trans {a b c : Record} (first : a.Later b) (second : b.Later c) : a.Later c :=
  ⟨second.call.trans first.call,second.digest.trans first.digest,second.claimed ∘ first.claimed,
    fun receipt there => second.receipt receipt (first.receipt receipt there)⟩

theorem Record.claim_later (record : Record) : record.Later record.claim := ⟨rfl,rfl,fun _ => rfl,fun _ => id⟩

theorem Record.complete_later (receipt : Json) (record : Record) : record.Later (record.complete receipt) :=
  ⟨rfl,rfl,id,fun _ there => by simp [Record.complete,there]⟩

/-! ### Tasks -/

structure Task.Later (a b : Task) : Prop where
  start : b.start = a.start
  records : ∀ callId record, a.records.find callId = some record →
    ∃ later, b.records.find callId = some later ∧ record.Later later

theorem Task.Later.of_same {a b : Task} (start : b.start = a.start) (records : b.records = a.records) : a.Later b :=
  ⟨start,fun _ record found => ⟨record,records ▸ found,.refl record⟩⟩

theorem Task.Later.refl (task : Task) : task.Later task := .of_same rfl rfl

theorem Task.Later.trans {a b c : Task} (first : a.Later b) (second : b.Later c) : a.Later c := by
  refine ⟨second.start.trans first.start,fun callId record found => ?_⟩
  obtain ⟨middle,there,later⟩ := first.records callId record found
  obtain ⟨last,here,latest⟩ := second.records callId middle there
  exact ⟨last,here,later.trans latest⟩

theorem Task.rewrite_later (task : Task) (callId : String) {f : Record → Record}
    (keeps : ∀ record, key (f record) = key record) (each : ∀ record : Record, record.Later (f record)) :
    task.Later (task.rewrite callId f keeps) := by
  refine ⟨rfl,fun id record found => ?_⟩
  simp only [Task.rewrite,Table.find_update,found,Option.map_some]
  refine ⟨_,rfl,?_⟩
  split
  · exact each record
  · exact .refl record

theorem Task.rewrite_find (task : Task) (callId : String) (f : Record → Record)
    (keeps : ∀ record, key (f record) = key record) :
    (task.rewrite callId f keeps).records.find callId = (task.records.find callId).map f := by
  rw [Task.rewrite]
  dsimp only
  rw [Table.find_update]
  cases found : task.records.find callId with
  | none => rfl
  | some record => rw [Option.map_some,if_pos (show record.call.callId = callId from (Table.find_eq_some.mp found).2),Option.map_some]

/-- What is known of every task: as many records as its grant allows, each with the digest of its call. -/
structure Task.Sound [Wire] (task : Task) : Prop where
  bounded : ∀ scope, task.start.control = some scope → task.records.rows.length ≤ scope.maxCalls
  digests : ∀ record ∈ task.records, record.digest = digestJson (.call record.call)

section
variable [Wire]

variable {a b task : Task} {scope : ControlScope}

theorem Task.Sound.of_same (sound : a.Sound) (start : b.start = a.start) (records : b.records = a.records) :
    b.Sound := by
  refine ⟨fun scope control => ?_,fun record member => sound.digests record (records ▸ member)⟩
  rw [records]
  exact sound.bounded scope (start ▸ control)

theorem Task.Sound.rewrite (sound : task.Sound) (callId : String) {f : Record → Record}
    (keeps : ∀ record, key (f record) = key record) (each : ∀ record : Record, record.Later (f record)) :
    (task.rewrite callId f keeps).Sound := by
  refine ⟨fun scope control => ?_,fun record member => ?_⟩
  · simp only [Task.rewrite,Table.update,List.length_map]
    exact sound.bounded scope control
  · rcases (Table.mem_update keeps).mp member with ⟨old,_⟩ | ⟨old,there,_,rfl⟩
    · exact sound.digests record old
    · rw [(each old).digest,(each old).call]
      exact sound.digests old there

/-- What a request makes of a task: its records stay, and it stays sound. -/
structure Task.Moves (a b : Task) : Prop where
  later : a.Later b
  sound : a.Sound → b.Sound

theorem Task.Moves.of_same (start : b.start = a.start) (records : b.records = a.records) : a.Moves b :=
  ⟨.of_same start records,fun sound => sound.of_same start records⟩

theorem Task.Moves.trans {c : Task} (first : a.Moves b) (second : b.Moves c) : a.Moves c :=
  ⟨first.later.trans second.later,second.sound ∘ first.sound⟩

theorem Task.observed_moves (task : Task) : task.Moves task.observed :=
  .of_same task.observed_start task.observed_records

theorem Task.submit_moves {call : ControlCall}
    (control : task.start.control = some scope) : task.Moves (task.submit scope call).1 := by
  unfold Task.submit
  split
  · exact .of_same rfl rfl
  · cases found : task.records.find call.callId with
    | some file => exact .of_same rfl rfl
    | none =>
      dsimp only
      split
      · exact .of_same rfl rfl
      · split
        · exact .of_same rfl rfl
        · rename_i room
          refine ⟨⟨rfl,fun callId record there => ?_⟩,fun sound => ⟨fun other same => ?_,fun record member => ?_⟩⟩
          · refine ⟨record,?_,.refl record⟩
            rw [Table.find_insert,there,Option.some_or]
          · obtain rfl : scope = other := Option.some.inj (control.symm.trans same)
            have length := @Table.insert_of_free _ _ _ _ _ (⟨call,digestJson (.call call),false,none⟩ : Record) found
            show (Table.insert _ _).rows.length ≤ _
            rw [length,List.length_append]
            exact Nat.not_le.mp room
          · rcases Table.mem_insert.mp member with old | ⟨rfl,_⟩
            · exact sound.digests record old
            · rfl

theorem Task.claim_moves (callId : String) (task : Task) : task.Moves (task.claim callId).1 := by
  have claimed : task.Moves (task.rewrite callId Record.claim fun _ => rfl) :=
    ⟨task.rewrite_later callId _ Record.claim_later,fun sound => sound.rewrite callId _ Record.claim_later⟩
  unfold Task.claim
  split
  · exact .of_same rfl rfl
  · split
    · exact .of_same rfl rfl
    · dsimp only
      split
      · exact claimed.trans (.of_same rfl rfl)
      · exact claimed

theorem Task.complete_moves (callId : String) (receipt : Json) (task : Task) :
    task.Moves (task.complete callId receipt).1 := by
  unfold Task.complete
  split
  · exact .of_same rfl rfl
  · exact ⟨task.rewrite_later callId _ (Record.complete_later receipt),
      fun sound => sound.rewrite callId _ (Record.complete_later receipt)⟩

theorem Task.handle_moves (ask : Ask) {task : Task} (control : task.start.control = some scope) :
    task.Moves (task.handle scope ask).1 := by
  cases ask with
  | submit call => exact task.submit_moves control
  | claim callId => exact task.claim_moves callId
  | complete callId receipt => exact task.complete_moves callId receipt
  | close =>
    simp only [Task.handle,Task.close]
    split <;> exact .of_same rfl rfl
  | poll => exact .of_same rfl rfl
  | result callId => exact .of_same rfl rfl
  | cleanup pendingFaults => exact .of_same rfl rfl

theorem Task.answer_moves (owner : String) (ask : Ask) (task : Task) : task.Moves (task.answer owner ask).1 := by
  unfold Task.answer
  split
  · exact .of_same rfl rfl
  · split
    · exact .of_same rfl rfl
    · rename_i scope control
      exact task.handle_moves ask control

/-! ### Managers -/

/-- What a request makes of the tasks of a workspace. -/
structure Manager.Moves (a b : Manager) : Prop where
  later : ∀ taskId task, a.tasks.find taskId = some task → ∃ later, b.tasks.find taskId = some later ∧ task.Later later
  sound : (∀ task ∈ a.tasks, task.Sound) → ∀ task ∈ b.tasks, task.Sound

theorem Manager.Moves.refl (m : Manager) : m.Moves m := ⟨fun _ task found => ⟨task,found,.refl task⟩,id⟩

theorem Manager.Moves.of_update {a b : Manager} {p : Task → Prop} [DecidablePred p] {f : Task → Task}
    (keeps : ∀ task, key (f task) = key task) (each : ∀ task : Task, task.Moves (f task))
    (tasks : b.tasks = a.tasks.update p f keeps) : a.Moves b := by
  refine ⟨fun taskId task found => ?_,fun sound task member => ?_⟩
  · rw [tasks,Table.find_update,found,Option.map_some]
    refine ⟨_,rfl,?_⟩
    split
    · exact (each task).later
    · exact .refl task
  · rw [tasks] at member
    rcases (Table.mem_update keeps).mp member with ⟨old,_⟩ | ⟨old,there,_,rfl⟩
    · exact sound task old
    · exact (each old).sound (sound old there)

theorem Manager.alter_moves (m : Manager) (taskId : String) (f : Task → Task)
    (keeps : ∀ task, (f task).start = task.start) (each : ∀ task : Task, task.Moves (f task)) :
    m.Moves (m.alter taskId f keeps) :=
  .of_update (fun task => congrArg TaskStart.taskId (keeps task)) each rfl

theorem Manager.start_moves (launch : Launch) (start : TaskStart) (owner : Option String) (m : Manager) :
    m.Moves (m.start launch start owner).1 := by
  unfold Manager.start
  split
  · exact .refl m
  · cases found : m.tasks.find start.taskId with
    | some task => exact m.alter_moves _ _ Task.observed_start Task.observed_moves
    | none =>
      dsimp only
      split
      · exact .refl m
      · split
        · exact .refl m
        · split
          · exact .refl m
          · refine ⟨fun taskId task there => ⟨task,?_,.refl task⟩,fun sound task member => ?_⟩
            · rw [Table.find_insert,there,Option.some_or]
            · rcases Table.mem_insert.mp member with old | ⟨rfl,_⟩
              · exact sound task old
              · exact ⟨fun _ _ => Nat.zero_le _,fun record none => absurd none (Table.not_mem_empty record)⟩

theorem Manager.bridge_moves (launch : Launch) (request : BridgeRequest) (m : Manager) :
    m.Moves (m.bridge launch request).1 := by
  unfold Manager.bridge
  split
  · exact .refl m
  · cases request with
    | start start owner =>
      dsimp only
      split
      · exact .refl m
      · exact m.start_moves launch start owner
    | ask taskId owner ask =>
      dsimp only
      split
      · exact .refl m
      · exact m.alter_moves taskId _ (fun task => (Task.answer_start owner ask _).trans task.observed_start) fun task =>
          task.observed_moves.trans (task.observed.answer_moves owner ask)

theorem Task.recovered_moves (task : Task) : task.Moves task.recovered := by
  unfold Task.recovered
  split
  · split
    · exact task.observed_moves
    · exact .of_same rfl rfl
  · exact .of_same rfl rfl

theorem Task.reaped_moves (task : Task) : task.Moves task.reaped := by
  unfold Task.reaped
  split
  · exact task.observed_moves.trans (.of_same rfl rfl)
  · exact task.observed_moves

theorem Task.stopped_moves (task : Task) : task.Moves task.stopped := by
  unfold Task.stopped
  split
  · exact task.observed_moves.trans (.of_same rfl rfl)
  · exact task.observed_moves

theorem Manager.happens_moves (event : ManagerEvent) (m : Manager) : m.Moves (m.happens event) := by
  cases event with
  | exits taskId exit =>
    exact m.alter_moves taskId (fun task => { task with exit := some exit }) (fun _ => rfl) fun _ => .of_same rfl rfl
  | reap taskId => exact .of_update (fun task => congrArg TaskStart.taskId task.reaped_start) Task.reaped_moves rfl
  | recover => exact .of_update (fun task => congrArg TaskStart.taskId task.recovered_start) Task.recovered_moves rfl
  | stop taskId => exact m.alter_moves taskId _ Task.stopped_start Task.stopped_moves
  | start launch start =>
    simp only [Manager.happens]
    split
    · exact .refl m
    · exact m.start_moves launch start none

/-! ### Worlds -/

/-- The record of a key. -/
def World.record (w : World) (key : CallKey) : Option Record :=
  ((w.managers key.1).tasks.find key.2.1).bind fun task => task.records.find key.2.2

/-- What a statement makes of the mailboxes. -/
def World.Moves (a b : World) : Prop := ∀ place, (a.managers place).Moves (b.managers place)

theorem World.manage_moves (w : World) (place : Place) {m : Manager} (moves : (w.managers place).Moves m) :
    w.Moves (w.manage place m) := by
  intro other
  by_cases same : other = place
  · subst same
    simpa [World.manage] using moves
  · simpa [World.manage,same] using Manager.Moves.refl _

theorem execute_moves {statement : Statement} {w after : World} {answer : statement.Answer}
    (executed : execute statement w = .ok (answer,after)) : w.Moves after := by
  cases statement with
  | bridge place launch request =>
    obtain ⟨_,rfl⟩ := Prod.mk.inj (Except.ok.inj executed)
    exact w.manage_moves place (Manager.bridge_moves launch request _)
  | create key child =>
    simp only [execute,bind_ok,ensure_ok] at executed
    obtain ⟨_,_,done⟩ := executed
    cases done
    exact fun place => .refl _
  | cancel name =>
    simp only [execute,bind_ok,ensure_ok] at executed
    obtain ⟨_,_,done⟩ := executed
    cases done
    exact fun place => .refl _
  | happens place event =>
    cases executed
    exact w.manage_moves place (Manager.happens_moves event _)
  | elsewhere change =>
    cases executed
    exact fun place => .refl _

theorem World.Moves.record {a b : World} (moves : a.Moves b) {key : CallKey} {record : Record}
    (found : a.record key = some record) : ∃ later, b.record key = some later ∧ record.Later later := by
  obtain ⟨task,there,here⟩ := Option.bind_eq_some_iff.mp found
  obtain ⟨later,kept,laterTask⟩ := (moves key.1).later key.2.1 task there
  obtain ⟨last,stays,laterRecord⟩ := laterTask.records key.2.2 record here
  exact ⟨last,by simp [World.record,kept,stays],laterRecord⟩
end

end Proofstorm.Bridge
