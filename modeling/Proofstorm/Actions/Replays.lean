import Proofstorm.Actions.Closed

/-!
How often an operation is executed. A finished action is removed after an hour,
and what keeps its operation from being sent once more is then the journal alone.
Where the journal no longer has an operation as pending when its action is removed,
and every call in progress would look, one action is created for each operation
(`named_once`) and at most one starts (`starts_once`).
-/
namespace Proofstorm.Actions
open Proofstorm.Core
open Proofstorm.Bridge (CellAction Wire)
open Proofstorm.Interleaving

/-- At most one action of an operation has begun to execute. -/
def StartsOnce (world : World) : Prop :=
  ∀ a ∈ world.started, ∀ b ∈ world.started, ∀ workspace id, Runs workspace id a.spec → Runs workspace id b.spec →
    a.uid = b.uid

/-- The action has the name of the operation that it runs. -/
def Named (journal : Journal) (action : Action) : Prop :=
  ∃ row ∈ journal.db.actions, action.name = row.resourceName ∧ Runs row.workspaceId row.id action.spec

section
variable {journal : Journal} {a b : Action}

/-- Actions of one operation have one name. -/
theorem Named.name_eq (left : Named journal a) (right : Named journal b) {workspace id : String}
    (first : Runs workspace id a.spec) (second : Runs workspace id b.spec) : a.name = b.name := by
  obtain ⟨row,there,named,runs⟩ := left
  obtain ⟨other,beside,called,does⟩ := right
  have same : row = other := Table.eq_of_key there beside
    (Prod.ext ((runs.1.symm.trans first.1).trans (second.1.symm.trans does.1))
      ((runs.2.symm.trans first.2).trans (second.2.symm.trans does.2)))
  rw [named,called,same]

/-- Actions of one name run one operation. -/
theorem Named.runs_of_name (left : Named journal a) (right : Named journal b) (same : a.name = b.name) {workspace id : String}
    (runs : Runs workspace id b.spec) : Runs workspace id a.spec := by
  obtain ⟨row,there,named,first⟩ := left
  obtain ⟨other,beside,called,second⟩ := right
  obtain rfl := journal.unique row there other beside (named.symm.trans (same.trans called))
  exact ⟨first.1.trans (second.1.symm.trans runs.1),first.2.trans (second.2.symm.trans runs.2)⟩

/-- An action runs the operation whose name it has. -/
theorem Named.runs (named : Named journal a) {operation : CellOperation} (recorded : journal.Records operation)
    (same : a.name = operation.resourceName) : Runs operation.workspaceId operation.id a.spec := by
  obtain ⟨row,there,called,runs⟩ := named
  obtain ⟨other,beside,home,key,title⟩ := recorded
  obtain rfl := journal.unique row there other beside (called.symm.trans (same.trans title.symm))
  exact home ▸ key ▸ runs
end

/-- One of these was created under this uid and name. -/
def Listed (created : List Action) (action : Action) : Prop :=
  ∃ other ∈ created, other.uid = action.uid ∧ other.name = action.name

/-- Every action is one of these, and has the name of its operation. -/
structure Known (journal : Journal) (created : List Action) (world : World) : Prop where
  actions : ∀ action ∈ world.actions, Listed created action ∧ Named journal action
  since : ∀ action ∈ world.created, Named journal action
  started : ∀ action ∈ world.started, Listed created action ∧ Named journal action

/-- What a call executes where every action it reads is known. -/
def Knowing (journal : Journal) (created : List Action) (statement : Statement) : Prop :=
  Permitted journal statement ∧ ∀ action, statement = .start action → Listed created action ∧ Named journal action

section
variable {journal : Journal} {created : List Action} {statement : Statement} {world after : World}

theorem named_create {resource : ActionResource} (permitted : Permitted journal (.apply resource)) (world : World) :
    Named journal (world.create resource) := by
  obtain ⟨operation,⟨row,there,home,key,title⟩,named,runs⟩ := permitted
  exact ⟨row,there,named.trans title.symm,home ▸ key ▸ runs⟩

variable [CoreFunctions] {answer : statement.Answer}

theorem created_grows (executed : execute statement world = .ok (answer,after)) : world.created ⊆ after.created := by
  cases execute_effect executed with
  | create resource free => exact List.subset_cons_self _ _
  | journal | resend | rewrite | delete | start | beside => exact List.Subset.refl _

theorem Known.stable (known : Known journal created world) (knowing : Knowing journal created statement)
    (listed : after.created ⊆ created) (executed : execute statement world = .ok (answer,after)) :
    Known journal created after := by
  obtain ⟨permitted,starts⟩ := knowing
  cases execute_effect executed with
  | journal | beside => exact ⟨known.actions,known.since,known.started⟩
  | create resource free =>
    have named := named_create permitted world
    refine ⟨fun action member => ?_,fun action member => ?_,known.started⟩
    · rcases Table.mem_insert.mp member with old | ⟨rfl,_⟩
      · exact known.actions action old
      · exact ⟨⟨_,listed List.mem_cons_self,rfl,rfl⟩,named⟩
    · rcases List.mem_cons.mp member with rfl | old
      · exact named
      · exact known.since action old
  | resend resource =>
    refine ⟨fun action member => ?_,known.since,known.started⟩
    rcases (Table.mem_update (by exact fun _ => rfl)).mp member with ⟨old,_⟩ | ⟨old,there,same,rfl⟩
    · exact known.actions action old
    · obtain ⟨row,recorded,title,runs⟩ := named_create permitted world
      exact ⟨(known.actions old there).1,row,recorded,Eq.trans same title,runs⟩
  | rewrite _ _ name f keeps same =>
    refine ⟨fun action member => ?_,known.since,known.started⟩
    rcases (Table.mem_update keeps).mp member with ⟨old,_⟩ | ⟨old,there,_,rfl⟩
    · exact known.actions action old
    · obtain ⟨⟨other,listed,uid,title⟩,row,recorded,named,runs⟩ := known.actions old there
      have keep : (f old).name = old.name := keeps old
      exact ⟨⟨other,listed,uid.trans (same old).2.symm,title.trans keep.symm⟩,
        row,recorded,keep.trans named,(same old).1.symm ▸ runs⟩
  | delete name => exact ⟨fun action member => known.actions action (Table.mem_delete.mp member).1,known.since,known.started⟩
  | start action =>
    refine ⟨known.actions,known.since,fun other member => ?_⟩
    rcases List.mem_cons.mp member with rfl | old
    · exact starts other rfl
    · exact known.started other old
/-- Some action on the server has the name. -/
def Present (name : String) (world : World) : Prop := ∃ row ∈ world.actions, row.name = name

/-- An action that is on the server stays there until it is removed. -/
theorem present_step {name : String} (present : Present name world) (executed : execute statement world = .ok (answer,after)) :
    Present name after ∨ statement = .delete name := by
  obtain ⟨row,there,rfl⟩ := present
  cases execute_effect executed with
  | journal | beside | start => exact .inl ⟨row,there,rfl⟩
  | create resource free => exact .inl ⟨row,Table.mem_insert.mpr (.inl there),rfl⟩
  | resend resource =>
    have found : world.actions.find row.name = some row := Table.find_eq_some.mpr ⟨there,rfl⟩
    obtain ⟨member,keyed⟩ := Table.find_eq_some.mp (Table.find_update_some (p := fun other => other.name = resource.name)
      (f := fun other => other.applied resource) (by exact fun _ => rfl) found)
    exact .inl ⟨_,member,keyed⟩
  | rewrite _ _ name f keeps same =>
    have found : world.actions.find row.name = some row := Table.find_eq_some.mpr ⟨there,rfl⟩
    obtain ⟨member,keyed⟩ := Table.find_eq_some.mp
      (Table.find_update_some (p := fun other => other.name = name) keeps found)
    exact .inl ⟨_,member,keyed⟩
  | delete name =>
    by_cases own : row.name = name
    · exact .inr (own ▸ rfl)
    · exact .inl ⟨row,Table.mem_delete.mpr ⟨there,own⟩,rfl⟩

/-- Where the actions that are gone are not sent, no name is created twice. -/
theorem once_step (permitted : Permitted journal statement) (named : ∀ action ∈ world.created, Named journal action)
    (once : (world.created.map fun action => action.name).Nodup)
    (gone : ∀ action ∈ world.created, Present action.name world ∨
      ∀ workspace id, Runs workspace id action.spec → Withholds workspace id statement)
    (executed : execute statement world = .ok (answer,after)) :
    (after.created.map fun action => action.name).Nodup ∧
      ∀ action ∈ after.created, action ∈ world.created ∨ Present action.name after := by
  cases execute_effect executed with
  | journal | resend | rewrite | delete | start | beside => exact ⟨once,fun action member => .inl member⟩
  | create resource free =>
    have fresh : resource.name ∉ world.created.map fun action => action.name := by
      intro taken
      obtain ⟨action,member,title⟩ := List.mem_map.mp taken
      rcases gone action member with ⟨row,there,same⟩ | withholds
      · exact Table.find_eq_none.mp free row there (same.trans title)
      · obtain ⟨operation,recorded,called,runs⟩ := permitted
        exact withholds _ _ ((named action member).runs recorded (title.trans called)) runs
    refine ⟨List.nodup_cons.mpr ⟨fresh,once⟩,fun action member => ?_⟩
    rcases List.mem_cons.mp member with rfl | old
    · exact .inr ⟨_,Table.mem_insert.mpr (.inr ⟨rfl,free⟩),rfl⟩
    · exact .inl old
end

section
variable [CoreFunctions] [Wire] {journal : Journal} {now : Int} {cells : Table Cell} {config : Config journal}

theorem code_knows (request : Request journal) (created : List Action) :
    (code request).Within (Known journal created) (fun statement _ => Knowing journal created statement) fun _ => True := by
  refine Call.Within.mono (@body_keeps _ _ _ (Known journal created) (Knowing journal created) ⟨?_,?_⟩ request)
    (fun _ _ holds => holds) fun _ _ => trivial
  · rintro statement _ permitted sighted
    refine ⟨permitted,?_⟩
    rintro action rfl
    obtain ⟨world,known,there⟩ := sighted
    exact known.actions action there
  · exact fun operation recorded _ _ named runs => ⟨⟨operation,recorded,named,runs⟩,fun _ other => nomatch other⟩

/-- In every run: every action was created, and has the name of its operation. -/
theorem reachable_known (reached : Reachable execute unavailable code (journal.world now cells) config) :
    Known journal config.state.created config.state := by
  have grown : ∀ event ∈ config.log, event.after.created ⊆ config.state.created := by
    intro event member
    obtain ⟨older,newer,split⟩ := List.append_of_mem member
    have steps := (split ▸ reached.linked).across (R := fun (a b : World) => a.created ⊆ b.created) fun seen there => by
      have committed := reached.committed.all seen (by rw [split]; exact List.mem_append_left _ there)
      unfold Committed at committed
      split at committed
      · rw [committed]; exact List.Subset.refl _
      · obtain ⟨answer,executed⟩ := committed
        exact created_grows executed
    generalize event.after = first at steps
    generalize config.state = last at steps ⊢
    induction steps with
    | refl => exact List.Subset.refl _
    | tail _ step ih => exact List.Subset.trans ih step
  refine (reached.invariant (Known journal config.state.created)
    (fun statement world => ∀ answer after, execute statement world = .ok (answer,after) → after.created ⊆ config.state.created)
    (fun _ statement _ => Knowing journal config.state.created statement) (fun _ _ => True) ?_ ?_
    (fun request => code_knows request _) fun _ statement _ world answer after known knowing listed executed =>
      known.stable knowing (listed answer after executed) executed).1
  · refine throughout_iff.mpr fun newer event older split statement did answer after executed => ?_
    have member : event ∈ config.log := by rw [split]; exact List.mem_append_right _ List.mem_cons_self
    obtain ⟨_,committed⟩ : ∃ answer, execute statement event.before = .ok (answer,event.after) := by
      have committed := reached.committed.all event member
      unfold Committed at committed
      rw [did] at committed
      exact committed
    obtain ⟨-,rfl⟩ := Prod.mk.inj (Except.ok.inj (executed.symm.trans committed))
    exact grown event member
  · exact ⟨fun _ none => absurd none (Table.not_mem_empty _),fun _ none => absurd none List.not_mem_nil,
      fun _ none => absurd none List.not_mem_nil⟩

/-- Where an action is about to be removed, the journal does not have its operation
    as pending, and every call in progress would look there before it sends it again. -/
def Retired (config : Config journal)
    (entry : Running (Request journal) World Statement Failure Statement.Answer (Except Failure Unit)) : Prop :=
  ∀ name next, entry.code = .write (.delete name) next → ∀ action ∈ config.state.actions, action.name = name →
    ∀ workspace id, Runs workspace id action.spec →
      Past workspace id config.state ∧ ∀ other ∈ config.pool, Looks workspace id other

/-- What every such run keeps: an action that is gone is not created again. -/
structure Unrepeated (config : Config journal) : Prop where
  once : (config.state.created.map fun action => action.name).Nodup
  gone : ∀ action ∈ config.state.created, Present action.name config.state ∨
    ∀ workspace id, Runs workspace id action.spec → Quiet (Past workspace id) (Noticing journal workspace id) config

theorem restricted_unrepeated (restricted : Restricted execute unavailable code (journal.world now cells) Retired config) :
    Unrepeated config := by
  induction restricted with
  | initial => exact ⟨List.nodup_nil,fun _ none => absurd none List.not_mem_nil⟩
  | start _ request ih =>
    exact ⟨ih.once,fun action member => (ih.gone action member).imp_right
      fun quiet workspace id runs => (quiet workspace id runs).start (code_notices request workspace id)⟩
  | crash _ front back entry here ih =>
    exact ⟨ih.once,fun action member => (ih.gone action member).imp_right
      fun quiet workspace id runs => (quiet workspace id runs).crash here⟩
  | @perform config restricted front back entry here did after rest step allowed ih =>
    have known := reachable_known restricted.reachable
    have own := step.within trivial (pool_permitted restricted.reachable entry (by simp [here]))
    cases did with
    | none =>
      obtain rfl : after = config.state := step.committed entry.request entry.since
      exact ⟨ih.once,fun action member => (ih.gone action member).imp_right
        fun quiet workspace id runs => ((quiet workspace id runs).perform noticing_stable here step _).1⟩
    | some statement =>
      obtain ⟨_,answer,may,executed,_⟩ := own.2 statement rfl
      obtain ⟨next,_,code,_,rfl⟩ := step.of_did rfl
      obtain ⟨once,added⟩ := once_step may known.since ih.once (fun action member => (ih.gone action member).imp_right
        fun quiet workspace id runs =>
          (((quiet workspace id runs).perform noticing_stable here step config.log).2 statement rfl).2) executed
      refine ⟨once,fun action member => ?_⟩
      rcases added action member with old | present
      · rcases ih.gone action old with present | quiet
        · rcases present_step present executed with still | rfl
          · exact .inl still
          · -- The action is removed: from here on every call looks.
            obtain ⟨row,there,title⟩ := present
            refine .inr fun workspace id runs => ?_
            obtain ⟨past,looks⟩ := allowed _ next code row there title workspace id
              ((known.actions row there).2.runs_of_name (known.since action old) title runs)
            refine Quiet.begin (fun other member => looks other ?_) (past.stable may executed)
              ((code ▸ looks entry (by simp [here]) : Call.Within _ _ _ (.write _ next)).2 _)
            rw [here]
            rcases List.mem_append.mp member with member | member
            · exact List.mem_append_left _ member
            · exact List.mem_append_right _ (List.mem_cons_of_mem _ member)
        · exact .inr fun workspace id runs => ((quiet workspace id runs).perform noticing_stable here step _).1
      · exact .inl present

/-- In every run in which the actions that are removed are those of operations that
    no call can send any more, at most one action of an operation ever starts. -/
theorem starts_once (restricted : Restricted execute unavailable code (journal.world now cells) Retired config) :
    StartsOnce config.state := by
  have known := reachable_known restricted.reachable
  have once := (restricted_unrepeated restricted).once
  intro a left b right workspace id first second
  obtain ⟨⟨created,listed,uid,title⟩,named⟩ := known.started a left
  obtain ⟨other,beside,same,called⟩ := known.started b right |>.1
  have names : created.name = other.name :=
    title.trans ((named.name_eq (known.started b right).2 first second).trans called.symm)
  obtain rfl := List.inj_on_of_nodup_map once listed beside names
  exact uid.symm.trans same

/-! ### An action that is removed -/

def removes : Call World Statement Failure Statement.Answer (Except Failure Unit) → Bool
  | .write (.delete _) _ => true
  | _ => false

/-- No action is about to be removed, or no operation of an action is pending and nobody submits one. -/
def settled (config : Config journal) : Bool :=
  config.pool.all (fun entry => !removes entry.code) || (config.pool.all (fun entry => !entry.request.submits) &&
    config.state.actions.rows.all fun action =>
      (config.state.journal.actions.find (action.spec.workspaceId,action.spec.operationId)).any fun row => row.phase ≠ .pending)

theorem retired_settled (reached : Reachable execute unavailable code (journal.world now cells) config)
    (calm : settled config = true)
    {entry : Running (Request journal) World Statement Failure Statement.Answer (Except Failure Unit)}
    (member : entry ∈ config.pool) : Retired config entry := by
  rintro name next removing action there - workspace id ⟨rfl,rfl⟩
  simp only [settled,Bool.or_eq_true,Bool.and_eq_true,List.all_eq_true,Bool.not_eq_true',Option.any_eq_true,
    decide_eq_true_eq] at calm
  rcases calm with none | ⟨silent,past⟩
  · have kept := none entry member
    rw [removing] at kept
    cases kept
  · exact ⟨past action there,fun other beside => pool_others reached _ _ other beside (silent other beside)⟩
end

section
attribute [local instance] CoreFunctions.sample
open Proofstorm.Bridge (sampleWire)

def sampleSucceeded : ActionStatus := ⟨.succeeded,none,none,some "action-op",some 0,some 0,none,none⟩

def sampleReconcile : Request sampleJournal := .reconcile "action-op"

def sampleReport : Request sampleJournal := .report "action-op" sampleSucceeded

/-- The action runs and its end is recorded; it is removed, and the submission is repeated. -/
def retried : Config sampleJournal :=
  Config.inTurn execute code
    [(sampleSubmit,10),(sampleReconcile,3),(sampleReport,1),(.observe "local" "op",6),(.tick 3601,1),(sampleReconcile,3),
      (sampleSubmit,2)] ⟨sampleWorld,[],[]⟩

theorem retried_retired : Restricted execute unavailable code sampleWorld Retired retried :=
  Restricted.inTurn (fun _ entry restricted calm alone => retired_settled restricted.reachable calm (by simp [alone])) _
    .initial (by decide +kernel)

theorem starts_once_retried : StartsOnce retried.state ∧ retried.state.started.length = 1 ∧ retried.state.actions.rows = [] :=
  ⟨starts_once retried_retired,by decide +kernel,by decide +kernel⟩

/-- The submission is cut off when it has sent the action, and repeated when the action has been removed. -/
def replayed : Config sampleJournal :=
  play execute code sampleWorld ([.start sampleSubmit] ++ List.replicate 7 (.perform 0) ++
    ([sampleReconcile,sampleReport,.tick 3601,sampleReconcile,sampleSubmit,sampleReconcile].flatMap fun request =>
      [.start request,.finish 0]))

/-- An operation can be executed a second time. -/
theorem starts_twice : ¬ ∀ (_ : CoreFunctions) (_ : Wire) (journal : Journal) (now : Int) (cells : Table Cell)
    (config : Config journal), Reachable execute unavailable code (journal.world now cells) config →
      StartsOnce config.state := by
  intro always
  have once := always CoreFunctions.sample sampleWire sampleJournal 0 sampleCells replayed (.play _)
  have twice : ∃ a ∈ replayed.state.started, ∃ b ∈ replayed.state.started, Runs "local" "op" a.spec ∧
      Runs "local" "op" b.spec ∧ a.uid ≠ b.uid := by decide +kernel
  obtain ⟨a,left,b,right,first,second,other⟩ := twice
  exact other (once a left b right "local" "op" first second)
end

end Proofstorm.Actions
