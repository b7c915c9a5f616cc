import Proofstorm.Actions.Runs
import Proofstorm.Bridge.Runs

/-!
What becomes of an operation that the journal closes without an action. A phase
that is terminal stays (`Closed.stable`), and a call that reads it sends nothing
(`code_notices`); but a call that has looked before may send the action after.
Where every call in progress looks again, no action is created any more
(`closed_never_runs`).
-/
namespace Proofstorm.Actions
open Proofstorm.Core
open Proofstorm.Bridge (CellAction Wire)
open Proofstorm.Interleaving

/-- The phase of the operation is terminal. -/
def Closed (workspace id : String) (world : World) : Prop :=
  ∃ row, world.journal.actions.find (workspace,id) = some row ∧ row.phase.active = false

/-- No action of the operation is on the server. -/
def Absent (workspace id : String) (world : World) : Prop :=
  ∀ action ∈ world.actions, ¬ Runs workspace id action.spec

/-- No action of the operation was ever created. -/
def Uncreated (workspace id : String) (world : World) : Prop :=
  ∀ action ∈ world.created, ¬ Runs workspace id action.spec

instance (workspace id : String) (world : World) : Decidable (Closed workspace id world) :=
  decidable_of_iff ((world.journal.actions.find (workspace,id)).any (fun row => !row.phase.active) = true)
    (by simp [Closed,Option.any_eq_true])

instance (workspace id : String) (world : World) : Decidable (Uncreated workspace id world) :=
  inferInstanceAs (Decidable (∀ action ∈ world.created, _))

section
variable {workspace id : String} {world after : World}

theorem Closed.past (closed : Closed workspace id world) : Past workspace id world := by
  obtain ⟨row,found,ended⟩ := closed
  refine ⟨row,found,fun pending => ?_⟩
  rw [pending] at ended
  exact nomatch ended

variable [CoreFunctions] {journal : Journal} {statement : Statement} {answer : statement.Answer}

/-- What a statement does to the phase of an operation. -/
theorem phase_step (permitted : Permitted journal statement) (executed : execute statement world = .ok (answer,after))
    {row : Store.ActionRow} (found : world.journal.actions.find (workspace,id) = some row) :
    ∃ row', after.journal.actions.find (workspace,id) = some row' ∧ (row'.phase = row.phase ∨
      (row.phase = .pending ∧ row'.phase = .running) ∨
      (row.phase.active = true ∧ row'.phase.active = false ∧ ∃ session phase artifact completedAt,
        statement = .journal (.recordOperationResult workspace id session phase artifact completedAt))) := by
  have keyed : row.workspaceId = workspace ∧ row.id = id := Prod.mk.inj (Table.find_eq_some.mp found).2
  cases execute_effect executed with
  | journal statement answer db committed =>
    cases statement with
    | recordOperationResult home operation session phase artifact completedAt =>
      simp only [Store.execute,Store.recordOperationResultTx] at committed
      split at committed
      · cases committed
        refine ⟨_,Table.find_update_some (by exact fun _ => rfl) found,?_⟩
        by_cases chosen : row.workspaceId = home ∧ row.id = operation ∧ row.phase.active = true
        · obtain ⟨rfl,rfl,active⟩ := chosen
          rw [if_pos ⟨rfl,rfl,active⟩,← keyed.1,← keyed.2]
          exact .inr (.inr ⟨active,permitted,session,phase,artifact,completedAt,rfl⟩)
        · rw [if_neg chosen]
          exact .inl rfl
      · cases committed
        exact ⟨row,found,.inl rfl⟩
    | updateOperationPhase home operation phase now =>
      cases committed
      refine ⟨_,Table.find_update_some (by exact fun _ => rfl) found,?_⟩
      by_cases chosen : row.workspaceId = home ∧ row.id = operation ∧ row.phase = .pending
      · rw [if_pos chosen]
        exact .inr (.inl ⟨chosen.2.2,permitted⟩)
      · rw [if_neg chosen]
        exact .inl rfl
    | _ => exact permitted.elim
  | create | resend | rewrite | delete | start | beside => exact ⟨row,found,.inl rfl⟩

/-- The journal comes to have no operations, and an operation ends only by its record. -/
theorem closed_origin (permitted : Permitted journal statement) (executed : execute statement world = .ok (answer,after))
    (closed : Closed workspace id after) : Closed workspace id world ∨
      ∃ artifact, (∃ session phase completedAt,
        statement = .journal (.recordOperationResult workspace id session phase artifact completedAt)) ∧
        ∃ row, world.journal.actions.find (workspace,id) = some row ∧ row.phase.active = true := by
  obtain ⟨row',found',ended⟩ := closed
  cases found : world.journal.actions.find (workspace,id) with
  | some row =>
    obtain ⟨other,there,same | ⟨_,running⟩ | ⟨active,_,session,phase,artifact,completedAt,rfl⟩⟩ :=
      phase_step permitted executed found
    · obtain rfl : other = row' := Option.some.inj (there.symm.trans found')
      exact .inl ⟨row,found,same ▸ ended⟩
    · obtain rfl : other = row' := Option.some.inj (there.symm.trans found')
      rw [running] at ended
      cases ended
    · exact .inr ⟨artifact,⟨session,phase,completedAt,rfl⟩,row,rfl,active⟩
  | none =>
    exfalso
    have missing : after.journal.actions.find (workspace,id) = none := by
      cases execute_effect executed with
      | journal statement answer db committed =>
        cases statement with
        | recordOperationResult home operation session phase artifact completedAt =>
          simp only [Store.execute,Store.recordOperationResultTx] at committed
          split at committed <;> cases committed
          · exact (Table.find_update _ _ _ (by exact fun _ => rfl) _).trans (congrArg (Option.map _) found)
          · exact found
        | updateOperationPhase home operation phase now =>
          cases committed
          exact (Table.find_update _ _ _ (by exact fun _ => rfl) _).trans (congrArg (Option.map _) found)
        | _ => exact permitted.elim
      | create | resend | rewrite | delete | start | beside => exact found
    cases missing.symm.trans found'

theorem Past.stable (past : Past workspace id world) (permitted : Permitted journal statement)
    (executed : execute statement world = .ok (answer,after)) : Past workspace id after := by
  obtain ⟨row,found,phase⟩ := past
  obtain ⟨row',found',same | ⟨pending,_⟩ | ⟨_,ended,_⟩⟩ := phase_step permitted executed found
  · exact ⟨row',found',same ▸ phase⟩
  · exact absurd pending phase
  · exact Closed.past ⟨row',found',ended⟩

theorem Closed.stable (closed : Closed workspace id world) (permitted : Permitted journal statement)
    (executed : execute statement world = .ok (answer,after)) : Closed workspace id after := by
  obtain ⟨row,found,ended⟩ := closed
  obtain ⟨row',found',same | ⟨pending,_⟩ | ⟨active,_⟩⟩ := phase_step permitted executed found
  · exact ⟨row',found',same ▸ ended⟩
  · rw [pending] at ended
    exact nomatch ended
  · exact nomatch ended.symm.trans active

theorem Absent.stable (absent : Absent workspace id world) (withholds : Withholds workspace id statement)
    (executed : execute statement world = .ok (answer,after)) : Absent workspace id after := by
  cases execute_effect executed with
  | journal | start | beside => exact absent
  | create resource free =>
    intro action member
    rcases Table.mem_insert.mp member with old | ⟨rfl,_⟩
    · exact absent action old
    · exact withholds
  | resend resource =>
    intro action member
    rcases (Table.mem_update (by exact fun _ => rfl)).mp member with ⟨old,_⟩ | ⟨old,_,_,rfl⟩
    · exact absent action old
    · exact withholds
  | rewrite _ _ name f keeps same =>
    intro action member
    rcases (Table.mem_update keeps).mp member with ⟨old,_⟩ | ⟨old,there,_,rfl⟩
    · exact absent action old
    · exact (same old).1 ▸ absent old there
  | delete name => exact fun action member => absent action (Table.mem_delete.mp member).1

theorem Uncreated.before (uncreated : Uncreated workspace id after)
    (executed : execute statement world = .ok (answer,after)) : Uncreated workspace id world := by
  cases execute_effect executed with
  | create resource free => exact fun action member => uncreated action (List.mem_cons_of_mem _ member)
  | journal | resend | rewrite | delete | start | beside => exact uncreated

theorem Uncreated.stable (uncreated : Uncreated workspace id world) (withholds : Withholds workspace id statement)
    (executed : execute statement world = .ok (answer,after)) : Uncreated workspace id after := by
  cases execute_effect executed with
  | create resource free =>
    intro action member
    rcases List.mem_cons.mp member with rfl | old
    · exact withholds
    · exact uncreated action old
  | journal | resend | rewrite | delete | start | beside => exact uncreated
end

section
variable [CoreFunctions] [Wire] {journal : Journal} {workspace id : String}

/-- What a call still executes that reads the journal once the operation is past. -/
abbrev Noticing (journal : Journal) (workspace id : String) (statement : Statement) : Prop :=
  Permitted journal statement ∧ Withholds workspace id statement

/-- A call that begins once the operation is past does not send its action. -/
theorem code_notices (request : Request journal) (workspace id : String) :
    (code request).Within (Past workspace id) (fun statement _ => Noticing journal workspace id statement) fun _ => True := by
  refine Call.Within.mono (@body_keeps _ _ _ (Past workspace id) (Noticing journal workspace id) ⟨?_,?_⟩ request)
    (fun _ _ holds => holds) fun _ _ => trivial
  · intro statement other permitted _
    refine ⟨permitted,?_⟩
    cases statement with
    | apply => exact nomatch other
    | _ => trivial
  · rintro operation recorded ⟨world,current,⟨row,found,past⟩,read,pending⟩ resource named runs
    refine ⟨⟨operation,recorded,named,runs⟩,fun here => ?_⟩
    obtain ⟨rfl,rfl⟩ : operation.workspaceId = workspace ∧ operation.id = id :=
      ⟨runs.1.symm.trans here.1,runs.2.symm.trans here.2⟩
    rw [Store.operationFrom,found] at read
    dsimp only at read
    split at read
    · cases read
      exact past pending
    · cases read

/-- Every statement that is executed is permitted. -/
theorem code_permitted (request : Request journal) :
    (code request).Within (fun _ => True) (fun statement _ => Permitted journal statement) fun _ => True := by
  refine Call.Within.mono (@body_keeps _ _ _ (fun _ => True) (Permitted journal) ⟨?_,?_⟩ request)
    (fun _ _ holds => holds) fun _ _ => trivial
  · exact fun _ _ permitted _ => permitted
  · exact fun operation recorded _ _ named runs => ⟨operation,recorded,named,runs⟩

/-- The call would look at the journal again, and then not send the action. -/
abbrev Looks (workspace id : String)
    (entry : Running (Request journal) World Statement Failure Statement.Answer (Except Failure Unit)) : Prop :=
  entry.code.Within (Past workspace id) (fun statement _ => Noticing journal workspace id statement) fun _ => True

/-- The journal records how an operation ended that is pending or running there. -/
def Records (workspace id : String) (artifact : OperationArtifact) (statement : Statement) (world : World) : Prop :=
  (∃ session phase completedAt,
    statement = .journal (.recordOperationResult workspace id session phase artifact completedAt)) ∧
    ∃ row, world.journal.actions.find (workspace,id) = some row ∧ row.phase.active = true

/-- The operation is recorded as not submitted. -/
def Unsubmitted (workspace id : String) (event : Event journal) : Prop :=
  ∃ statement artifact, event.did = some statement ∧ Records workspace id artifact statement event.before ∧
    artifact.content = unsubmittedArtifact

/-- Where a call is about to record how an operation ended, and no action of it was
    created or the record says that it was not submitted, every call in progress
    would look at the journal before it sends one; and where the record says so,
    none is on the server. -/
def Undisturbed (config : Config journal)
    (entry : Running (Request journal) World Statement Failure Statement.Answer (Except Failure Unit)) : Prop :=
  ∀ statement next, entry.code = .write statement next → ∀ workspace id artifact,
    Records workspace id artifact statement config.state →
      (Uncreated workspace id config.state ∨ artifact.content = unsubmittedArtifact →
        ∀ other ∈ config.pool, Looks workspace id other) ∧
      (artifact.content = unsubmittedArtifact → Absent workspace id config.state)

omit [Wire] in
/-- What is recorded has ended. -/
theorem Records.closed {world after : World} {statement : Statement} {answer : statement.Answer}
    {artifact : OperationArtifact} (records : Records workspace id artifact statement world)
    (permitted : Permitted journal statement) (executed : execute statement world = .ok (answer,after)) :
    Closed workspace id after := by
  obtain ⟨⟨session,phase,completedAt,rfl⟩,row,found,active⟩ := records
  obtain ⟨member,keyed⟩ := Table.find_eq_some.mp found
  obtain ⟨home,same⟩ := Prod.mk.inj keyed
  cases execute_effect executed with
  | journal statement answer db committed =>
    simp only [Store.execute,Store.recordOperationResultTx] at committed
    split at committed
    · cases committed
      refine ⟨_,Table.find_update_some (by exact fun _ => rfl) found,?_⟩
      rw [if_pos ⟨home,same,active⟩]
      exact permitted
    · rename_i none
      exact absurd ⟨row,member,home,same,active⟩ none
  | rewrite _ minor => cases minor
  | beside _ minor => cases minor

/-- What every such run keeps. -/
structure Sound (config : Config journal) : Prop where
  quiet : ∀ workspace id, Closed workspace id config.state → Uncreated workspace id config.state →
    Quiet (Past workspace id) (Noticing journal workspace id) config
  closed : ∀ event ∈ config.log, ∀ workspace id, Closed workspace id event.after → Uncreated workspace id event.after →
    Closed workspace id config.state ∧ Uncreated workspace id config.state
  unsubmitted : ∀ event ∈ config.log, ∀ workspace id, Unsubmitted workspace id event →
    Quiet (Past workspace id) (Noticing journal workspace id) config ∧ Absent workspace id config.state

variable {now : Int} {cells : Table Cell} {config : Config journal}

omit [Wire] in
theorem noticing_stable (statement : Statement) (world : World) (answer : statement.Answer) (after : World)
    (past : Past workspace id world) (noticing : Noticing journal workspace id statement)
    (executed : execute statement world = .ok (answer,after)) : Past workspace id after :=
  past.stable noticing.1 executed

theorem pool_permitted (reached : Reachable execute unavailable code (journal.world now cells) config) :
    ∀ entry ∈ config.pool, entry.code.Within (fun _ => True) (fun statement _ => Permitted journal statement) fun _ => True :=
  (reached.invariant (fun _ => True) (fun _ _ => True) (fun _ statement _ => Permitted journal statement)
    (fun _ _ => True) (throughout_iff.mpr fun _ _ _ _ _ _ => trivial) trivial code_permitted
    fun _ _ _ _ _ _ _ _ _ _ => trivial).2.1

theorem restricted_sound (restricted : Restricted execute unavailable code (journal.world now cells) Undisturbed config) :
    Sound config := by
  induction restricted with
  | initial => exact ⟨fun _ _ closed _ => ⟨closed.past,by simp⟩,by simp,by simp⟩
  | start _ request ih =>
    exact ⟨fun workspace id closed uncreated => (ih.quiet workspace id closed uncreated).start (code_notices request workspace id),
      ih.closed,fun event member workspace id recorded =>
        ⟨(ih.unsubmitted event member workspace id recorded).1.start (code_notices request workspace id),
          (ih.unsubmitted event member workspace id recorded).2⟩⟩
  | crash _ front back entry here ih =>
    exact ⟨fun workspace id closed uncreated => (ih.quiet workspace id closed uncreated).crash here,ih.closed,
      fun event member workspace id recorded =>
        ⟨(ih.unsubmitted event member workspace id recorded).1.crash here,
          (ih.unsubmitted event member workspace id recorded).2⟩⟩
  | @perform config restricted front back entry here did after rest step allowed ih =>
    have permitted := pool_permitted restricted.reachable entry (by simp [here])
    have own := step.within trivial permitted
    have others : ∀ other ∈ front ++ back, other ∈ config.pool := by
      intro other member
      rw [here]
      rcases List.mem_append.mp member with member | member
      · exact List.mem_append_left _ member
      · exact List.mem_append_right _ (List.mem_cons_of_mem _ member)
    have event_member : ∀ {event}, event ∈ (⟨entry.request,entry.since,did,config.state,after,rest.result?⟩ : Event journal) ::
        config.log → event = ⟨entry.request,entry.since,did,config.state,after,rest.result?⟩ ∨ event ∈ config.log :=
      List.mem_cons.mp
    cases did with
    | none =>
      obtain rfl : after = config.state := step.committed entry.request entry.since
      refine ⟨fun workspace id closed uncreated => ?_,fun event member workspace id closed uncreated => ?_,
        fun event member workspace id recorded => ?_⟩
      · exact ((ih.quiet workspace id closed uncreated).perform noticing_stable here step _).1
      · rcases event_member member with rfl | member
        · exact ⟨closed,uncreated⟩
        · exact ih.closed event member workspace id closed uncreated
      · rcases event_member member with rfl | member
        · obtain ⟨_,_,did,_⟩ := recorded
          exact nomatch did
        · obtain ⟨quiet,absent⟩ := ih.unsubmitted event member workspace id recorded
          exact ⟨(quiet.perform noticing_stable here step _).1,absent⟩
    | some statement =>
      obtain ⟨next,answer,may,executed,_⟩ := own.2 statement rfl
      obtain ⟨next,_,code,_,rfl⟩ := step.of_did rfl
      refine ⟨fun workspace id closed uncreated => ?_,fun event member workspace id closed uncreated => ?_,
        fun event member workspace id recorded => ?_⟩
      · have grown : Uncreated workspace id config.state := uncreated.before executed
        rcases closed_origin may executed closed with already | ⟨artifact,records⟩
        · exact ((ih.quiet workspace id already grown).perform noticing_stable here step _).1
        · have looks := (allowed statement next code workspace id artifact records).1 (.inl grown)
          exact Quiet.begin (fun other member => looks other (others other member)) closed.past
            ((code ▸ looks entry (by simp [here]) : Call.Within _ _ _ (.write statement next)).2 _)
      · rcases event_member member with rfl | member
        · exact ⟨closed,uncreated⟩
        · obtain ⟨already,grown⟩ := ih.closed event member workspace id closed uncreated
          obtain ⟨_,noticing⟩ := (ih.quiet workspace id already grown).perform noticing_stable here step config.log
          exact ⟨already.stable may executed,grown.stable (noticing statement rfl).2 executed⟩
      · rcases event_member member with rfl | member
        · obtain ⟨_,artifact,did,records,unsubmitted⟩ := recorded
          cases did
          obtain ⟨looks,absent⟩ := allowed statement next code workspace id artifact records
          refine ⟨Quiet.begin (fun other member => looks (.inr unsubmitted) other (others other member)) (records.closed may executed).past
            ((code ▸ looks (.inr unsubmitted) entry (by simp [here]) : Call.Within _ _ _ (.write statement next)).2 _),
            (absent unsubmitted).stable ?_ executed⟩
          obtain ⟨⟨_,_,_,rfl⟩,_⟩ := records
          trivial
        · obtain ⟨quiet,absent⟩ := ih.unsubmitted event member workspace id recorded
          obtain ⟨still,noticing⟩ := quiet.perform noticing_stable here step _
          exact ⟨still,absent.stable (noticing statement rfl).2 executed⟩

/-- What the journal closes without an action stays without one. -/
structure Final (config : Config journal) : Prop where
  closed : ∀ event ∈ config.log, ∀ workspace id, Closed workspace id event.after → Uncreated workspace id event.after →
    Uncreated workspace id config.state
  unsubmitted : ∀ event ∈ config.log, ∀ workspace id, Unsubmitted workspace id event → Absent workspace id config.state

/-- A call that submits nothing sends nothing. -/
theorem code_others (request : Request journal) (other : request.submits = false) (workspace id : String) :
    (code request).Within (fun _ => True) (fun statement _ => Noticing journal workspace id statement) fun _ => True := by
  refine Call.Within.mono (@keeps_others _ _ _ (fun _ => True) (Noticing journal workspace id) ?_ request other)
    (fun _ _ holds => holds) fun _ _ => trivial
  intro statement silent permitted _
  refine ⟨permitted,?_⟩
  cases statement with
  | apply => exact nomatch silent
  | _ => trivial

theorem pool_others (reached : Reachable execute unavailable code (journal.world now cells) config) (workspace id : String) :
    ∀ entry ∈ config.pool, entry.request.submits = false → Looks workspace id entry := by
  have pool := (reached.invariant (fun _ => True) (fun _ _ => True)
    (fun request statement _ => request.submits = false → Noticing journal workspace id statement) (fun _ _ => True)
    (throughout_iff.mpr fun _ _ _ _ _ _ => trivial) trivial (fun request => ?_) fun _ _ _ _ _ _ _ _ _ _ => trivial).2.1
  · exact fun entry member other =>
      ((pool entry member).mono (fun _ _ holds => holds other) fun _ _ => trivial).narrow fun _ _ => trivial
  · cases submits : request.submits with
    | true => exact Call.within_trivial (fun _ _ silent => nomatch silent) fun _ => trivial
    | false => exact (code_others request submits workspace id).mono (fun _ _ holds _ => holds) fun _ _ => trivial

/-- No action is on the server, and nobody submits one, or every operation has ended. -/
def calm (config : Config journal) : Bool :=
  config.state.actions.rows.isEmpty && (config.pool.all (fun entry => !entry.request.submits) ||
    config.state.journal.actions.rows.all fun row => !row.phase.active)

theorem undisturbed_calm (reached : Reachable execute unavailable code (journal.world now cells) config)
    (still : calm config = true)
    (entry : Running (Request journal) World Statement Failure Statement.Answer (Except Failure Unit)) :
    Undisturbed config entry := by
  rintro statement next _ workspace id artifact ⟨_,row,found,active⟩
  simp only [calm,Bool.and_eq_true,Bool.or_eq_true,List.all_eq_true,List.isEmpty_iff,Bool.not_eq_true'] at still
  obtain ⟨bare,silent | ended⟩ := still
  · refine ⟨fun _ other member => pool_others reached workspace id other member (silent other member),fun _ action member => ?_⟩
    exact absurd (Table.mem_rows.mpr member) (by rw [bare]; exact List.not_mem_nil)
  · rw [ended row (Table.find_eq_some.mp found).1] at active
    exact nomatch active
end

section
attribute [local instance] CoreFunctions.sample
open Proofstorm.Bridge (sampleWire)
variable {journal : Journal}

/-- A cancellation runs to its end, and then the submission. -/
def cancelledBefore : Config sampleJournal :=
  Config.inTurn execute code [(sampleCancel,8),(sampleSubmit,2)] ⟨sampleWorld,[],[]⟩

theorem cancelledBefore_undisturbed : Restricted execute unavailable code sampleWorld Undisturbed cancelledBefore :=
  Restricted.inTurn (fun _ entry restricted still _ => undisturbed_calm restricted.reachable still entry) _ .initial
    (by decide +kernel)

/-- The event of a cancellation that finds no action. -/
def cancels (workspace id : String) (event : Event journal) : Bool :=
  match event.did with
  | some (.journal (.recordOperationResult home operation _ _ artifact _)) =>
    home = workspace && operation = id && artifact.content = unsubmittedArtifact &&
      (event.before.journal.actions.find (workspace,id)).any fun row => row.phase.active
  | _ => false

theorem unsubmitted_of_cancels {workspace id : String} {event : Event journal} (seen : cancels workspace id event = true) :
    Unsubmitted workspace id event := by
  unfold cancels at seen
  split at seen
  · rename_i home operation session phase artifact completedAt did
    simp only [Bool.and_eq_true,decide_eq_true_eq,Option.any_eq_true] at seen
    obtain ⟨⟨⟨rfl,rfl⟩,content⟩,active⟩ := seen
    exact ⟨_,artifact,did,⟨⟨session,phase,completedAt,rfl⟩,active⟩,content⟩
  · exact nomatch seen

/-- A cancellation runs when the submission has looked at the journal and for the action. -/
def cancelledDuring : Config sampleJournal :=
  play execute code sampleWorld
    ([.start sampleSubmit] ++ List.replicate 6 (.perform 0) ++ [.start sampleCancel,.finish 0,.finish 0])

end

end Proofstorm.Actions
