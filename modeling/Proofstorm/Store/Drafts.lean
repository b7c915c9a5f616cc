import Proofstorm.Store.Journal

/-!
The calls on drafts over whole runs. Where every step is undisturbed, a run is
its serial execution: what the calls on drafts answer is what they would answer
one after the other, each with its receipt in one step (`drafts_serial`).
-/
namespace Proofstorm.Store
open Proofstorm.Core
open Proofstorm.Interleaving (Call Performs Running Throughout Restricted throughout_iff)

section
variable [CoreFunctions]

/-! ### Runs -/

/-- Every receipt of a draft comes from the effect of a call with its key. -/
def Sourced (log : List Event) : Prop :=
  ∀ row ∈ (serial log).idempotency, row.operation ∈ draftOperations → ∃ newer made older c draft,
    log = newer ++ made :: older ∧ row = c.receipt draft ∧ Effective c draft made older

/-- What an event shows of the serial execution. -/
structure Seen (older : List Event) (event : Event) : Prop where
  effect : ∀ c, event.request.draftCall = some c →
    (serial (event :: older) = serial older ∧ event.after.drafts = event.before.drafts) ∨
      ∃ draft, Effective c draft event older
  reply : ∀ c, event.request.draftCall = some c → ∀ reply, event.reply = some reply →
    Justified c (event :: older) event reply
  quiet : event.did = none → serial (event :: older) = serial older
  other : event.request.draftCall = none → ∀ statement, event.did = some statement → statement.Foreign ∧
    ∃ answer, execute statement event.before = .ok (answer,event.after) ∧
      execute statement (serial older) = .ok (answer,serial (event :: older))
  sourced : Sourced (event :: older)

variable {older : List Event} {event : Event} {c : DraftCall} {draft : Draft}

theorem Sourced.same (sourced : Sourced older) (same : serial (event :: older) = serial older) :
    Sourced (event :: older) := by
  intro row member operation
  rw [same] at member
  obtain ⟨newer,made,earlier,c,draft,rfl,rest⟩ := sourced row member operation
  exact ⟨event :: newer,made,earlier,c,draft,rfl,rest⟩

theorem Sourced.effect (sourced : Sourced older) (effective : Effective c draft event older) :
    Sourced (event :: older) := by
  intro row member operation
  rw [effective.recorded] at member
  rcases Table.mem_insert.mp member with old | ⟨rfl,_⟩
  · obtain ⟨newer,made,earlier,c,draft,rfl,rest⟩ := sourced row old operation
    exact ⟨event :: newer,made,earlier,c,draft,rfl,rest⟩
  · exact ⟨[],event,older,c,draft,rfl,rfl,effective⟩

theorem Sourced.other (sourced : Sourced older) {statement : Statement} (foreign : statement.Foreign)
    {answer : statement.Answer} (executed : execute statement (serial older) = .ok (answer,serial (event :: older))) :
    Sourced (event :: older) := by
  intro row member operation
  have old := ((execute_write executed).draftReceipts foreign operation).1 member
  obtain ⟨newer,made,earlier,c,draft,rfl,rest⟩ := sourced row old operation
  exact ⟨event :: newer,made,earlier,c,draft,rfl,rest⟩

/-- What is known of a call in progress. -/
private def Known (log : List Event)
    (entry : Running Request Db Statement StoreError Statement.Answer (Except StoreError Reply)) : Prop :=
  match entry.request.draftCall with
  | some c => Underway c entry.since log entry.code
  | none => entry.code.Within (fun _ => True) (fun statement _ => statement.Foreign) fun _ => True

/-- A step of a draft call. -/
private theorem seen_own (request : event.request.draftCall = some c) (tracks : Tracks older event.before)
    (sourced : Sourced older) {rest : Call Db Statement StoreError Statement.Answer (Except StoreError Reply)}
    (ended : event.reply = rest.result?) (stepped : Stepped c older event rest) : Seen older event where
  effect := by
    intro own same
    rw [request] at same
    cases same
    rcases stepped.effect with same | effective
    · refine .inl ⟨same,?_⟩
      rw [← stepped.tracks.drafts,same,tracks.drafts]
    · exact .inr effective
  reply := by
    intro own same reply replied
    rw [request] at same
    cases same
    cases rest with
    | done result =>
      rw [replied] at ended
      cases ended
      exact stepped.reply _ rfl
    | read next => rw [replied] at ended; exact nomatch ended
    | write statement next => rw [replied] at ended; exact nomatch ended
  quiet := serial_quiet
  other := by
    intro none_
    rw [request] at none_
    exact nomatch none_
  sourced := by
    rcases stepped.effect with same | ⟨draft,effective⟩
    · exact sourced.same same
    · exact sourced.effect effective

/-- A step of another call. -/
private theorem seen_other (request : event.request.draftCall = none) (sourced : Sourced older)
    (executed : ∀ statement, event.did = some statement → statement.Foreign ∧
      ∃ answer, execute statement event.before = .ok (answer,event.after) ∧
        execute statement (serial older) = .ok (answer,serial (event :: older))) : Seen older event where
  effect := by
    intro own same
    rw [request] at same
    exact nomatch same
  reply := by
    intro own same
    rw [request] at same
    exact nomatch same
  quiet := serial_quiet
  other := fun _ => executed
  sourced := by
    cases did : event.did with
    | none => exact sourced.same (serial_quiet did)
    | some statement =>
      obtain ⟨foreign,_,_,again⟩ := executed statement did
      exact sourced.other foreign again

private theorem known_begins (log : List Event) (request : Request) : Known log ⟨request,log.length,code request⟩ := by
  cases own : request.draftCall with
  | some c =>
    simp only [Known,own,code_draftCall own]
    exact .begun
  | none =>
    simp only [Known,own]
    exact (program_foreign own).mono (fun _ _ allowed => allowed.2) fun _ _ => trivial

private theorem known_later (log : List Event) (event : Event)
    (entry : Running Request Db Statement StoreError Statement.Answer (Except StoreError Reply))
    (known : Known log entry) : Known (event :: log) entry := by
  rw [Known] at known ⊢
  cases own : entry.request.draftCall with
  | some c =>
    simp only [own] at known ⊢
    exact known.later event
  | none =>
    simp only [own] at known ⊢
    exact known

/-- One undisturbed step. -/
private theorem known_step (config : Config)
    (entry : Running Request Db Statement StoreError Statement.Answer (Except StoreError Reply)) (event : Event)
    (rest : Call Db Statement StoreError Statement.Answer (Except StoreError Reply))
    (holds : Tracks config.log config.state ∧ Sourced config.log) (known : Known config.log entry)
    (may : Undisturbed config entry) (request : event.request = entry.request) (since : event.since = entry.since)
    (before : event.before = config.state) (ended : event.reply = rest.result?)
    (step : Performs execute busy entry.code event.before event.did event.after rest) :
    (Tracks (event :: config.log) event.after ∧ Sourced (event :: config.log)) ∧
      (rest.result? = none → Known (event :: config.log) { entry with code := rest }) ∧ Seen config.log event := by
  obtain ⟨tracks,sourced⟩ := holds
  rw [Known,← request,← since] at known
  rw [Undisturbed,← request,← before] at may
  rw [← before] at tracks
  simp only [Known,← request,← since]
  cases own : event.request.draftCall with
  | some c =>
    simp only [own] at known may
    have stepped := known.step tracks own may step
    have seen := seen_own own tracks sourced ended stepped
    exact ⟨⟨stepped.tracks,seen.sourced⟩,stepped.standing,seen⟩
  | none =>
    simp only [own] at known may
    have each : ∀ statement, event.did = some statement → Tracks (event :: config.log) event.after ∧
        statement.Foreign ∧ ∃ answer, execute statement event.before = .ok (answer,event.after) ∧
          execute statement (serial config.log) = .ok (answer,serial (event :: config.log)) := by
      intro statement did
      obtain ⟨next,answer,left,executed,_⟩ := step.of_did did
      rw [left] at known
      obtain ⟨now,again⟩ := tracks.other own did executed (may statement next left)
      exact ⟨now,known.1,answer,executed,again⟩
    have now : Tracks (event :: config.log) event.after := by
      cases did : event.did with
      | none =>
        have committed := step.committed event.request event.since
        rw [did] at committed
        exact tracks.quiet did committed
      | some statement => exact (each statement did).1
    have seen := seen_other own sourced fun statement did => (each statement did).2
    exact ⟨⟨now,seen.sourced⟩,fun _ => (step.within trivial known).1,seen⟩

theorem unbroken_seen {config : Config} (unbroken : Unbroken config) :
    (Tracks config.log config.state ∧ Sourced config.log) ∧ Throughout Seen config.log := by
  have first : Tracks [] Db.empty ∧ Sourced [] :=
    ⟨⟨rfl,fun row member => absurd member (Table.not_mem_empty row)⟩,
      fun row member => absurd member (Table.not_mem_empty row)⟩
  have shown := unbroken.induction (fun log db => Tracks log db ∧ Sourced log) Known Seen first known_begins known_later
    known_step
  exact ⟨shown.1,shown.2.2⟩

/-- A receipt of a draft stays until cells or handles are purged. -/
private theorem Seen.kept (seen : Seen older event) {row : ReceiptRow} (member : row ∈ (serial older).idempotency)
    (operation : row.operation ∈ draftOperations) :
    row ∈ (serial (event :: older)).idempotency ∨
      ∃ statement, event.did = some statement ∧ statement.isPurge = true := by
  cases own : event.request.draftCall with
  | some c =>
    rcases seen.effect c own with ⟨same,_⟩ | ⟨draft,effective⟩
    · rw [same]
      exact .inl member
    · rw [effective.recorded]
      exact .inl (Table.mem_insert_of_mem member)
  | none =>
    cases did : event.did with
    | none =>
      rw [seen.quiet did]
      exact .inl member
    | some statement =>
      obtain ⟨foreign,_,_,again⟩ := seen.other own statement did
      rcases ((execute_write again).draftReceipts foreign operation).2 member with purge | kept
      · exact .inr ⟨statement,rfl,purge⟩
      · exact .inl kept

private theorem kept_across {between : List Event} (seen : Throughout Seen (between ++ older)) {row : ReceiptRow}
    (member : row ∈ (serial older).idempotency) (operation : row.operation ∈ draftOperations) :
    row ∈ (serial (between ++ older)).idempotency ∨
      ∃ event ∈ between, ∃ statement, event.did = some statement ∧ statement.isPurge = true := by
  induction between with
  | nil => exact .inl member
  | cons event rest ih =>
    rcases ih seen.2 with there | ⟨purge,among,removed⟩
    · rcases seen.1.kept there operation with kept | removed
      · exact .inl kept
      · exact .inr ⟨event,List.mem_cons_self,removed⟩
    · exact .inr ⟨purge,List.mem_cons_of_mem event among,removed⟩

/-- No two calls of a run that are different have receipts alike. -/
def DistinctDrafts (log : List Event) : Prop :=
  ∀ a ∈ log, ∀ b ∈ log, ∀ c ∈ a.request.draftCall, ∀ d ∈ b.request.draftCall,
    c.work.operation = d.work.operation → digestJson (.json c.work.document) = digestJson (.json d.work.document) →
      c.work = d.work

/-- A run is its serial execution, but for receipts that are due. -/
structure AsSerial (config : Config) : Prop where
  state : Tracks config.log config.state
  /-- The statements of other calls do and answer the same. -/
  statements : Throughout (fun older event => event.request.draftCall = none → ∀ statement, event.did = some statement →
    ∃ answer, execute statement event.before = .ok (answer,event.after) ∧
      execute statement (serial older) = .ok (answer,serial (event :: older))) config.log
  /-- The drafts change only where a call has its effect. -/
  effects : Throughout (fun older event => ∀ c, event.request.draftCall = some c →
    (serial (event :: older) = serial older ∧ event.after.drafts = event.before.drafts) ∨
      ∃ draft, Effective c draft event older) config.log
  /-- A call answers what the serial execution of it answers at one of its steps,
      unless its caller or the engine refused it. -/
  replies : Throughout (fun older event => ∀ c, event.request.draftCall = some c → ∀ reply, event.reply = some reply →
    Justified c (event :: older) event reply) config.log
  /-- Under one key there is one effect, until its receipt is purged. -/
  once : ∀ newer later between first older c d draft other, config.log = newer ++ later :: (between ++ first :: older) →
    Effective c draft first older → Effective d other later (between ++ first :: older) →
    c.receiptKey = d.receiptKey → ∃ event ∈ between, ∃ statement, event.did = some statement ∧ statement.isPurge = true
  /-- A call that succeeds returns the draft that its request made, then or earlier. -/
  answers : Throughout (fun older event => ∀ c, event.request.draftCall = some c → ∀ draft,
    event.reply = some (.ok (.draft draft)) → ∃ newer made earlier, event :: older = newer ++ made :: earlier ∧
      made.request = event.request ∧ Effective c draft made earlier) config.log
  /-- An edit that succeeds returns the next version, with its own cell. -/
  edits : ∀ event ∈ config.log, ∀ workspace principal id expectedVersion cell k draft,
    event.request = .editDraft workspace principal id expectedVersion cell k →
    event.reply = some (.ok (.draft draft)) → draft = ⟨id,workspace,expectedVersion + 1,cell⟩

private theorem answered_effect {config : Config} (seen : Throughout Seen config.log) (distinct : DistinctDrafts config.log)
    {newer older : List Event} {event : Event} (log : config.log = newer ++ event :: older)
    (request : event.request.draftCall = some c) (replied : event.reply = some (.ok (.draft draft))) :
    ∃ newer made earlier, event :: older = newer ++ made :: earlier ∧ made.request = event.request ∧
      Effective c draft made earlier := by
  have here := throughout_iff.mp seen newer event older log
  rcases here.reply c request _ replied with failed | ⟨error,_,failed⟩ | ⟨recent,moment,past,split,called,_,answer⟩
  · cases failed
  · cases failed
  · -- The receipt was there when the serial execution answered, and so is the effect it came from.
    have whole : config.log = (newer ++ recent) ++ moment :: past := by
      rw [log,split,List.append_assoc]
    have there := throughout_iff.mp seen _ moment past whole
    obtain ⟨between,made,earlier,origin,result,found,same,effective⟩ :=
      there.sourced _ (once_ok answer) c.work.operation_mem
    have among : made ∈ config.log := by
      rw [whole,found]
      simp
    have own : event ∈ config.log := by
      rw [log]
      simp
    obtain ⟨home,caller,named,operation,digest,produced⟩ : c.workspace = origin.workspace ∧
        c.principal = origin.principal ∧ c.requestKey = origin.requestKey ∧ c.work.operation = origin.work.operation ∧
        digestJson (.json c.work.document) = digestJson (.json origin.work.document) ∧ draft = result := by
      simpa only [DraftCall.receipt,ReceiptRow.mk.injEq,Response.draft.injEq] using same
    have work := distinct event own made among c request origin effective.request operation digest
    have one : c = origin := by
      cases c
      cases origin
      simp only [DraftCall.mk.injEq]
      exact ⟨home,caller,named,work⟩
    subst one
    subst produced
    refine ⟨recent ++ between,made,earlier,?_,Request.draftCall_inj effective.request request,effective⟩
    rw [split,found,List.append_assoc]

/-- A run without disturbances is its serial execution. -/
theorem drafts_serial {config : Config} (unbroken : Unbroken config) (distinct : DistinctDrafts config.log) :
    AsSerial config := by
  obtain ⟨⟨tracks,_⟩,seen⟩ := unbroken_seen unbroken
  have answers : Throughout (fun older event => ∀ c, event.request.draftCall = some c → ∀ draft,
      event.reply = some (.ok (.draft draft)) → ∃ newer made earlier, event :: older = newer ++ made :: earlier ∧
        made.request = event.request ∧ Effective c draft made earlier) config.log :=
    throughout_iff.mpr fun newer event older log c request draft replied =>
      answered_effect seen distinct log request replied
  constructor
  · exact tracks
  · exact seen.mono fun older event here other statement did => (here.other other statement did).2
  · exact seen.mono fun older event here => here.effect
  · exact seen.mono fun older event here => here.reply
  · intro newer later between first older c d draft other log began ended sameKey
    have split : Throughout Seen (between ++ first :: older) := by
      have whole := seen
      rw [log,throughout_iff] at whole
      rw [throughout_iff]
      intro recent event past place
      exact whole (newer ++ later :: recent) event past (by rw [place]; simp)
    have made : c.receipt draft ∈ (serial (first :: older)).idempotency := by
      rw [began.recorded]
      exact Table.mem_insert.mpr (.inr ⟨rfl,began.free⟩)
    rcases kept_across split made c.work.operation_mem with kept | purged
    · have free := ended.free
      rw [← sameKey] at free
      exact absurd rfl (Table.find_eq_none.mp free _ kept)
    · exact purged
  · exact answers
  · intro event member workspace principal id expectedVersion cell k draft request replied
    obtain ⟨newer,older,log⟩ := List.append_of_mem member
    have called : event.request.draftCall = some ⟨workspace,principal,k,.edit id expectedVersion cell⟩ := by
      rw [request]
      rfl
    obtain ⟨_,made,_,_,_,effective⟩ := throughout_iff.mp answers newer event older log _ called draft replied
    exact effective.makes
end

/-! ### Runs to evaluate -/

section
variable [CoreFunctions] {c : DraftCall} {due : Table ReceiptRow} {db : Db} {id : String} {cell : CellSpec}

/-- A statement without a receipt is undisturbed in any configuration. -/
private theorem undisturbed_unkeyed {config : Config}
    {entry : Running Request Db Statement StoreError Statement.Answer (Except StoreError Reply)}
    (other : entry.request.draftCall = none) {statement : Statement}
    {next : Except StoreError statement.Answer → Call Db Statement StoreError Statement.Answer (Except StoreError Reply)}
    (left : entry.code = .write statement next) (unkeyed : statement.receiptKey = none) : Undisturbed config entry := by
  rw [Undisturbed,other]
  intro found rest same k keyed
  rw [left] at same
  cases same
  rw [unkeyed] at keyed
  exact nomatch keyed

variable {code : Call Db Statement StoreError Statement.Answer (Except StoreError Reply)}

section
variable (work : c.work = .create id cell)
include work

/-- What is asked of a call that creates a draft. -/
private theorem clear_of_create (fresh : code = finishing c.fresh → due.find c.receiptKey = none)
    (recorded : ∀ draft, code = finishing (c.record draft) →
      db.idempotency.find c.receiptKey = none ∧ due.find c.receiptKey = some (c.receipt draft)) : Clear c due db code where
  fresh := fresh
  copied := by
    intro source target cell other
    rw [work] at other
    exact nomatch other
  stale := by
    intro id expectedVersion cell other
    rw [work] at other
    exact nomatch other
  edited := by
    intro id expectedVersion cell changed other
    rw [work] at other
    exact nomatch other
  recorded := recorded

private theorem clear_read
    (next : Db → Call Db Statement StoreError Statement.Answer (Except StoreError Reply)) : Clear c due db (.read next) := by
  apply clear_of_create work
  · rw [DraftCall.fresh,work,finishing_submit]
    intro same
    cases same
  · intro draft
    rw [DraftCall.record,finishing_submit]
    intro same
    cases same

private theorem fresh_ne_record (draft : Draft) :
    finishing c.fresh ≠ finishing (c.record draft) := by
  rw [DraftCall.record,finishing_submit,DraftCall.fresh,work,finishing_submit]
  intro same
  injection same with same
  exact Statement.noConfusion same

private theorem clear_create (free : due.find c.receiptKey = none) :
    Clear c due db (finishing c.fresh) :=
  clear_of_create work (fun _ => free) fun draft same => absurd same (fresh_ne_record work draft)
end

private theorem clear_record (work : c.work = .create id cell) {draft : Draft}
    (free : db.idempotency.find c.receiptKey = none) (found : due.find c.receiptKey = some (c.receipt draft)) :
    Clear c due db (finishing (c.record draft)) := by
  apply clear_of_create work
  · exact fun same => absurd same.symm (fresh_ne_record work draft)
  · intro other
    rw [DraftCall.record,finishing_submit,DraftCall.record,finishing_submit]
    intro same
    injection same with same
    cases same
    exact ⟨free,found⟩
end

section
attribute [local instance] CoreFunctions.sample

def sampleCreate : DraftCall := ⟨"w","p","k1",.create "one" (sampleCell ["alice"])⟩

def sampleCreation : Request := .createDraft "w" "p" "one" (sampleCell ["alice"]) "k1"

/-- A draft is created, and the call is repeated with its key. -/
def createdTwice : Config :=
  ran [.start (.putWorkspace ⟨"w","w"⟩),.perform 0,.start (.putPrincipal "p"),.perform 0,
    .start (.grant "w" "p" .cellCreate),.perform 0,
    .start sampleCreation,.perform 0,.perform 0,.perform 0,.perform 0,.start sampleCreation,.perform 0,.perform 0]

set_option maxRecDepth 100000 in
private theorem createdTwice_unbroken : Unbroken createdTwice := by
  have work : sampleCreate.work = .create "one" (sampleCell ["alice"]) := rfl
  have first : Unbroken ⟨Db.empty,[],[]⟩ := .initial
  have workspace := (first.start (.putWorkspace ⟨"w","w"⟩)).perform_only _ rfl (undisturbed_unkeyed rfl rfl rfl)
  have principal := (workspace.start (.putPrincipal "p")).perform_only _ rfl (undisturbed_unkeyed rfl rfl rfl)
  have granted := (principal.start (.grant "w" "p" .cellCreate)).perform_only _ rfl (undisturbed_unkeyed rfl rfl rfl)
  have seeking := (granted.start sampleCreation).perform_only _ rfl (clear_read (c := sampleCreate) work _)
  have fresh := seeking.perform_only ⟨sampleCreation,3,finishing sampleCreate.seek⟩ rfl
    (clear_read (c := sampleCreate) work _)
  have recording := fresh.perform_only ⟨sampleCreation,3,finishing sampleCreate.fresh⟩ rfl
    (clear_create (c := sampleCreate) work (by decide +kernel))
  have created := recording.perform_only
    ⟨sampleCreation,3,finishing (sampleCreate.record ⟨"one","w",1,sampleCell ["alice"]⟩)⟩ rfl
    (clear_record (c := sampleCreate) work (by decide +kernel) (by decide +kernel))
  have again := (created.start sampleCreation).perform_only _ rfl (clear_read (c := sampleCreate) work _)
  exact again.perform_only ⟨sampleCreation,7,finishing sampleCreate.seek⟩ rfl (clear_read (c := sampleCreate) work _)

set_option maxRecDepth 100000 in
theorem drafts_serial_createdTwice : AsSerial createdTwice ∧
    createdTwice.log.filterMap Interleaving.Event.reply =
      [.ok (.draft ⟨"one","w",1,sampleCell ["alice"]⟩),.ok (.draft ⟨"one","w",1,sampleCell ["alice"]⟩),.ok .done,.ok .done,
        .ok .done] := by
  have requests : ∀ event ∈ createdTwice.log, ∀ c ∈ event.request.draftCall, c = sampleCreate := by decide +kernel
  constructor
  · apply drafts_serial createdTwice_unbroken
    intro a first b second c own d other _ _
    rw [requests a first c own,requests b second d other]
  · decide +kernel

/-- An edit of `q` comes between the edit of `p` and the read of what it wrote. -/
def editedBetween : Config :=
  ran (inTurn (prepared [] ++ [.createDraft "w" "p" "one" (sampleCell ["alice"]) "k1"]) ++
    [.start (.editDraft "w" "p" "one" 1 (sampleCell ["bob"]) "k2"),.perform 0,.perform 0,.perform 0,
      .start (.editDraft "w" "q" "one" 2 (sampleCell ["carol"]) "k3"),.finish 0,.finish 0])

set_option maxRecDepth 100000 in
/-- Not every edit that succeeds returns the next version with its own cell. -/
theorem not_always_serial : ¬ ∀ config : Config, Reached config → ∀ event ∈ config.log,
    ∀ workspace principal id expectedVersion cell k draft,
      event.request = .editDraft workspace principal id expectedVersion cell k →
      event.reply = some (.ok (.draft draft)) → draft = ⟨id,workspace,expectedVersion + 1,cell⟩ := by
  intro always
  have seen : ∃ event ∈ editedBetween.log, event.request = .editDraft "w" "p" "one" 1 (sampleCell ["bob"]) "k2" ∧
      event.reply = some (.ok (.draft ⟨"one","w",3,sampleCell ["carol"]⟩)) := by decide +kernel
  obtain ⟨event,member,request,replied⟩ := seen
  have same := always _ (ran_reached _) event member _ _ _ _ _ _ _ request replied
  exact absurd same (by decide)
end

end Proofstorm.Store
