import Proofstorm.Bridge.Records

/-!
What the replies of a manager say about its mailbox. A claim is fresh where the
record was neither claimed nor answered and the task was running, and the record
is claimed from then on; the pending call that a poll shows has no receipt.
-/
namespace Proofstorm.Bridge

section
variable [Wire]

theorem Task.read_ok {task : Task} {callId : String} {record : Record} :
    task.read callId = .ok record ↔ task.records.find callId = some record ∧ Wire.recordBytes record ≤ 65536 := by
  simp only [Task.read,readRecord,bind_ok,require_ok,ensure_ok,pure_ok]
  constructor
  · rintro ⟨_,found,_,small,rfl⟩
    exact ⟨found,small⟩
  · rintro ⟨found,small⟩
    exact ⟨record,found,(),small,rfl⟩

/-- What a reply to a request about a mailbox says: the task was there, and its owner asked. -/
theorem Manager.bridge_ask {launch : Launch} {taskId owner : String} {ask : Ask} {m : Manager} {reply : Reply}
    (replied : (m.bridge launch (.ask taskId owner ask)).2 = .ok reply) (present : reply ≠ .absent) :
    ∃ task, m.tasks.find taskId = some task ∧ (task.observed.answer owner ask).2 = .ok reply ∧
      (m.bridge launch (.ask taskId owner ask)).1.tasks.find taskId = some (task.observed.answer owner ask).1 := by
  unfold Manager.bridge at replied ⊢
  cases valid : BridgeRequest.validate (.ask taskId owner ask) with
  | error error => simp [valid] at replied
  | ok _ =>
    simp only [valid] at replied ⊢
    cases found : m.tasks.find taskId with
    | none =>
      simp only [found] at replied
      split at replied
      · exact absurd (Except.ok.inj replied).symm present
      · cases replied
    | some task =>
      simp only [found] at replied ⊢
      refine ⟨task,rfl,replied,?_⟩
      have own : task.start.taskId = taskId := (Table.find_eq_some.mp found).2
      simp [Manager.alter,Table.find_update,found,own]

/-- Whether the task of a key is running, as the manager sees it. -/
def World.Running (w : World) (key : CallKey) : Prop :=
  ∃ task, (w.managers key.1).tasks.find key.2.1 = some task ∧ task.observed.state.phase = .running

theorem claim_fresh {launch : Launch} {key : CallKey} {owner : String} {w : World} {digest : String}
    (replied : ((w.managers key.1).bridge launch (.ask key.2.1 owner (.claim key.2.2))).2 = .ok (.claim true digest)) :
    w.Running key ∧ (∃ record, w.record key = some record ∧ record.claimed = false ∧ record.receipt = none) ∧
      ∃ record, (w.manage key.1 ((w.managers key.1).bridge launch (.ask key.2.1 owner (.claim key.2.2))).1).record key =
        some record ∧ record.claimed = true := by
  obtain ⟨task,found,answered,after⟩ := Manager.bridge_ask replied (by simp)
  unfold Task.answer at answered after
  split at answered
  · cases answered
  · rename_i mine
    rw [if_neg mine] at after
    split at answered
    · cases answered
    · rename_i scope control
      simp only [control,Task.handle,Task.claim] at answered after
      split at answered
      · cases answered
      · rename_i active
        rw [if_neg active] at after
        cases read : task.observed.read key.2.2 with
        | error error => simp [read] at answered
        | ok record =>
          simp only [read,Except.ok.injEq,Reply.claim.injEq,decide_eq_true_eq] at answered after
          obtain ⟨⟨unclaimed,unanswered⟩,_⟩ := answered
          have there := (Task.read_ok.mp read).1
          rw [Task.observed_records] at there
          refine ⟨⟨task,found,Decidable.not_not.mp active⟩,⟨record,?_,?_,?_⟩,record.claim,?_,rfl⟩
          · simp [World.record,found,there]
          · simpa using unclaimed
          · simpa using unanswered
          · have claimed := (task.observed.rewrite_find key.2.2 Record.claim fun _ => rfl).trans
              (congrArg (Option.map Record.claim) (task.observed_records ▸ there))
            simp only [World.record,World.manage,if_pos,after,Option.bind_some]
            split
            · exact claimed
            · exact claimed

theorem nextPending_mem {next : Option Record} {files : List Record} {record : Record}
    (shown : nextPending next files = .ok (some record)) :
    (record ∈ files ∧ record.receipt = none) ∨ next = some record := by
  induction files generalizing next with
  | nil => exact .inr (Except.ok.inj shown)
  | cons file rest ih =>
    simp only [nextPending,readRecord,bind_ok,ensure_ok,pure_ok] at shown
    obtain ⟨_,⟨_,_,rfl⟩,shown⟩ := shown
    split at shown
    · rcases ih shown with ⟨member,open_⟩ | same
      · exact .inl ⟨List.mem_cons_of_mem _ member,open_⟩
      · exact .inr same
    · rename_i unanswered
      have open_ : file.receipt = none := by simpa using unanswered
      split at shown
      · obtain rfl : file = record := by simpa using shown
        exact .inl ⟨List.mem_cons_self,open_⟩
      · rcases ih shown with ⟨member,there⟩ | same
        · exact .inl ⟨List.mem_cons_of_mem _ member,there⟩
        · cases next with
          | some earlier => exact .inr same
          | none =>
            obtain rfl : file = record := Option.some.inj same
            exact .inl ⟨List.mem_cons_self,open_⟩

/-- The pending call of a poll is a record of the mailbox that has no receipt. -/
theorem poll_pending {launch : Launch} {place : Place} {taskId owner : String} {w : World} {state : State}
    {record : Record} {callCount : Option Nat}
    (replied : ((w.managers place).bridge launch (.ask taskId owner .poll)).2 = .ok (.poll state (some record) callCount)) :
    w.record (place,taskId,record.call.callId) = some record ∧ record.receipt = none ∧
      ∃ task, (w.managers place).tasks.find taskId = some task ∧ task.observed.state = state := by
  obtain ⟨task,found,answered,_⟩ := Manager.bridge_ask replied (by simp)
  unfold Task.answer at answered
  split at answered
  · cases answered
  · split at answered
    · cases answered
    · simp only [Task.handle,Task.poll,bind_ok,pure_ok,Reply.poll.injEq] at answered
      obtain ⟨pending,shown,same,rfl,_⟩ := answered
      rcases nextPending_mem shown with ⟨member,open_⟩ | none_
      · have there : record ∈ task.records := by
          rw [Task.observed_records] at member
          exact (List.mem_insertionSort Record.before).mp member
        refine ⟨?_,open_,task,found,same⟩
        simp only [World.record,found,Option.bind_some]
        exact Table.find_of_mem there
      · cases none_
end

end Proofstorm.Bridge
