import Proofstorm.Bridge.Runs
import Proofstorm.Unstarted.Kept

/-!
What is said of an action that was not started. A native action of which it is
recorded that nothing was run has no command, then and afterwards. A Job is looked
for and then created, or looked for and then the action is given up: nothing keeps
the one pass from the other, and the record is true where no pass looks for the
Job between the look and the write of one that goes the other way (`Fenced`).
-/
namespace Proofstorm.Unstarted
open Proofstorm.Core (Json)
open Proofstorm.Actions (ActionStatus Failure isTerminal startDeadlinePassed unavailable)
open Proofstorm.Bridge (Spec Wire)
open Proofstorm.Interleaving

def Creates : Statement → Prop
  | .createJob _ => True
  | _ => False

def Declares : Statement → Prop
  | .applyStatus status | .mergeStatus _ status => SaysUnstarted status
  | _ => False

/-- A pass comes to create the Job only with the status that the action has, and
    while no other is about to record that nothing was run; it comes to record that
    only while no other is about to create the Job. -/
def Fenced (config : Config) (entry : Entry) : Prop :=
  ∀ next, entry.code = .read next →
    (∀ seen rest, next config.state = .write (.createJob seen) rest →
      (∃ o, config.state.action = some o ∧ o.status = seen) ∧ ∀ other ∈ config.pool, ¬ other.code.About Declares) ∧
    ((next config.state).About Declares → ∀ other ∈ config.pool, ¬ other.code.About Creates)

section
variable {spec : Spec} {world after : World} {copy : Object} {findings : Findings}

/-- A call that comes to create the Job, or to record that nothing was run, where it
    has looked for the Job in vain. -/
abbrev Looks {α : Type} (spec : Spec) (call : Program α) : Prop :=
  call.run.Outside (Sound spec) (fun statement => Creates statement ∨ Declares statement) fun world => world.job = none

abbrev Neither {α : Type} (spec : Spec) (call : Program α) : Prop :=
  Keeps (Sound spec) (fun statement => ¬ (Creates statement ∨ Declares statement)) call fun _ => True

theorem Neither.looks {call : Program Unit} (neither : Neither spec call) : Looks spec call := by
  rw [← bind_pure call]
  exact Keeps.outside neither fun _ _ => .done

/-- Whatever the read has shown. -/
theorem Neither.ends {call : Program Unit} (neither : Neither spec call) {shown : Prop} :
    (call.run.About (fun statement => Creates statement ∨ Declares statement) → shown) ∧
      call.run.Enters (Sound spec) (fun statement => Creates statement ∨ Declares statement) fun world => world.job = none :=
  ⟨fun about => absurd about neither.looks.1,neither.looks.2⟩

theorem neither_patch {status : ActionStatus} (run : ¬ SaysUnstarted status) : Neither spec (patchActionStatus copy status) :=
  keeps_patch fun either => either.elim id run

theorem neither_failure {code message : String} (other : code ≠ "action_not_started") :
    Neither spec (patchActionFailure copy code message) := by
  simp only [patchActionFailure,clock,keeps_bind,keeps_query]
  exact fun _ _ _ _ => neither_patch (not_unstarted rfl rfl other)

theorem neither_invalid {message : String} : Neither spec (patchInvalidAction copy message) := neither_failure (by decide)

theorem looks_cancellation : Looks spec (reconcileActionCancellation copy) := by
  rw [reconcileActionCancellation]
  split
  · exact (neither_failure (by decide)).looks
  · refine .afterQuery fun world found _ read => ?_
    obtain rfl := Except.ok.inj read
    cases job : world.job with
    | some state => exact ⟨fun about => about.elim False.elim False.elim,.submit⟩
    | none =>
      refine ⟨fun _ => rfl,?_⟩
      change (patchActionStatus copy (cancelledStatus copy world.now)).run.Enters _ _ _
      rw [patchActionStatus]
      split
      · exact True.intro
      · exact .submit

theorem not_unstarted_running {started : Int} : ¬ SaysUnstarted (runningStatus copy started) := by
  rintro (⟨failed,_⟩ | ⟨cancelled,_⟩)
  · exact nomatch failed
  · exact nomatch cancelled

theorem looks_job : Looks spec (reconcileJob copy findings) := by
  rw [reconcileJob]
  split
  · refine Neither.looks ?_
    simp only [clock,keeps_bind,keeps_query]
    exact fun _ _ _ _ => neither_patch (not_unstarted rfl rfl (by decide))
  · refine .afterQuery fun world found _ read => ?_
    obtain rfl := Except.ok.inj read
    cases job : world.job with
    | none =>
      refine ⟨fun _ => rfl,?_⟩
      dsimp only
      split
      · exact (neither_patch (not_unstarted rfl rfl (by decide))).looks.2
      · refine .afterSubmit fun _ => Neither.looks ?_
        simp only [clock,keeps_bind,keeps_query]
        exact fun _ _ _ _ => neither_patch not_unstarted_running
    | some state =>
      cases state with
      | active => exact (neither_patch not_unstarted_running).ends
      | failed failure details =>
        refine (neither_patch (not_unstarted rfl rfl ?_)).ends
        cases failure <;> decide
      | succeeded =>
        dsimp only
        split
        · refine Neither.ends (neither_patch ?_)
          rintro (⟨failed,_⟩ | ⟨cancelled,_⟩)
          · exact nomatch failed
          · exact nomatch cancelled
        · exact (neither_patch (not_unstarted rfl rfl (by decide))).ends

theorem looks_open (job : route copy.spec.action = .job) : Looks spec (reconcileOpen copy findings) := by
  rw [reconcileOpen]
  split
  · exact (neither_failure (by decide)).looks
  split
  · exact neither_invalid.looks
  split
  · exact .done
  split
  · rename_i live
    cases job.symm.trans live.1
  split
  · exact (neither_failure (by decide)).looks
  split
  · rename_i error details _
    have other : error.code ≠ "action_not_started" := by cases error <;> decide
    refine Neither.looks ?_
    simp only [clock,keeps_bind,keeps_query]
    exact fun _ _ _ _ => neither_patch (not_unstarted rfl rfl other)
  · rw [job]
    exact looks_job

theorem looks_expire (job : route copy.spec.action = .job) : Looks spec (do
    if ← expireUnstartedAction copy then pure () else reconcileOpen copy findings) := by
  rw [expireUnstartedAction,bind_assoc]
  refine .afterQuery fun world found _ read => ?_
  obtain rfl := Except.ok.inj read
  cases there : world.job with
  | some state =>
    have open_ := @looks_open spec _ findings job
    exact ⟨fun about => absurd about open_.1,open_.2⟩
  | none =>
    refine ⟨fun _ => rfl,?_⟩
    dsimp only
    rw [bind_assoc]
    refine .afterAttempt fun answer => ?_
    split
    · exact .done
    · exact .done
    · exact .done

variable [Wire]

theorem looks_action (job : route copy.spec.action = .job) : Looks spec (reconcileAction copy findings) := by
  rw [reconcileAction]
  split
  · rename_i owned
    cases job.symm.trans (route_owned owned)
  split
  · split
    · exact .done
    · exact Neither.looks (keeps_expireFinished fun either => either.elim id id)
  split
  · split
    · rename_i live
      cases job.symm.trans live.1
    · exact looks_cancellation
  · have passes : ∀ now, Looks spec (if startDeadlinePassed copy.toAction now = true then do
        if ← expireUnstartedAction copy then pure () else reconcileOpen copy findings
      else reconcileOpen copy findings) := by
      intro now
      split
      · exact looks_expire job
      · exact looks_open job
    exact .afterQuery fun _ now _ _ => ⟨fun about => absurd about (passes now).1,(passes now).2⟩

theorem looks (job : route spec.action = .job) (request : Request) : Looks spec (body request) := by
  cases request with
  | reconcile place findings =>
    refine .afterQuery fun world found sound read => ?_
    obtain rfl := Except.ok.inj read
    cases handed : world.served[place]? with
    | none => exact ⟨False.elim,True.intro⟩
    | some copy =>
      have kind := sound.kind copy (List.mem_of_getElem? handed)
      have looks : Looks spec (reconcileAction copy findings) := looks_action (kind ▸ job)
      exact ⟨fun about => absurd about looks.1,looks.2⟩
  | annotate key value => exact ⟨fun about => about.elim id id,.submit⟩
  | happens change => exact ⟨fun about => about.elim id id,.submit⟩
  | delete => exact ⟨fun about => about.elim id id,.submit⟩
  | tick seconds => exact ⟨fun about => about.elim id id,.submit⟩

theorem keeping (request : Request) : Keeping spec (body request) world := by
  cases request with
  | reconcile place findings =>
    refine .afterQuery fun world found _ sound read => ?_
    obtain rfl := Except.ok.inj read
    cases handed : world.served[place]? with
    | none => exact True.intro
    | some copy => exact keeping_reconcileAction sound (List.mem_of_getElem? handed)
  | annotate key value => exact fun _ _ _ => ⟨trivial,fun _ _ _ _ => True.intro,fun _ => True.intro⟩
  | happens change => exact fun _ _ _ => ⟨trivial,fun _ _ _ _ => True.intro,fun _ => True.intro⟩
  | delete => exact fun _ _ _ => ⟨trivial,fun _ _ _ _ => True.intro,fun _ => True.intro⟩
  | tick seconds => exact fun _ _ _ => ⟨trivial,fun _ _ _ _ => True.intro,fun _ => True.intro⟩
end

/-! ### All runs -/

section
variable [Wire] {spec : Spec} {world after : World} {creation : Creation} {now : Int} {config : Config}

omit [Wire] in
theorem Creation.sound (creation : Creation) (now : Int) : Sound creation.object.spec (creation.world now) := by
  have only : ∀ c ∈ (creation.world now).served, c = creation.object := fun c served => List.mem_singleton.mp served
  have unset : ∀ c ∈ (creation.world now).served, c.status = none := fun c served => only c served ▸ creation.unset
  exact
    { newest := by
        rintro _ ⟨⟩
        exact ⟨List.mem_singleton_self _,fun c served => only c served ▸ ⟨le_rfl,fun _ => rfl⟩⟩
      kind := fun c served => only c served ▸ rfl
      cancelled := by
        rintro _ ⟨⟩ c served
        exact only c served ▸ id
      fresh := fun _ _ _ => ⟨rfl,unset⟩
      merged := by
        rintro _ ⟨⟩ code
        rw [creation.unmerged] at code
        exact nomatch code
      begun := fun _ c served status there => nomatch (unset c served).symm.trans there
      jobless := fun _ => rfl
      commandless := fun _ => rfl
      claims := fun _ =>
        { handled := fun c served status there => nomatch (unset c served).symm.trans there
          claimed := fun some_ => absurd rfl some_
          merged := by
            rintro _ ⟨⟩ handle
            rw [creation.unmerged] at handle
            exact absurd rfl handle
          excluded := fun ⟨_,recorded,_⟩ => nomatch recorded
          stopped := fun c served _ _ ⟨d,also,handle⟩ => by
            rw [nativeHandle,unset d also] at handle
            exact handle rfl } }

theorem sound_run {may : Config → Entry → Prop}
    (restricted : Restricted execute unavailable code (creation.world now) may config) :
    Sound creation.object.spec config.state ∧ ∀ entry ∈ config.pool,
      entry.code.Upholds execute (fun _ world => Sound creation.object.spec world) Later (Needs creation.object.spec)
        config.state := by
  obtain ⟨sound,pool,_⟩ := restricted.upheld (Sound creation.object.spec) (fun _ _ => True)
    (fun _ => Needs creation.object.spec) (fun _ _ _ => True.intro) (creation.sound now) Later.refl Later.trans
    (fun request _ _ => (keeping request).mono fun _ _ holds => holds.1) fun _ _ _ _ _ sound needs executed => sound.step needs executed
  exact ⟨sound,fun entry member => (pool entry member).mono fun _ _ holds => ⟨holds,True.intro⟩⟩

omit [Wire] in
theorem Sound.uncommanded (sound : Sound spec world) (declared : Declared world) : world.natives = [] := by
  by_cases native : route spec.action = .native
  · by_contra started
    exact (sound.claims native).excluded declared ((sound.claims native).claimed started)
  · exact sound.commandless native

omit [Wire] in
/-- What one statement does to an action that a Job runs. -/
theorem job_step {statement : Statement} {answer : statement.Answer} (sound : Sound spec world)
    (job : route spec.action = .job) (needs : Needs spec statement world)
    (executed : execute statement world = .ok (answer,after)) :
    (¬ Declares statement → Declared after → Declared world) ∧ (¬ Creates statement → world.job = none → after.job = none) := by
  cases statement with
  | annotate key value =>
    simp only [execute,bind_ok,require_ok] at executed
    obtain ⟨o,there,executed⟩ := executed
    cases executed
    exact ⟨fun _ => id,fun _ => id⟩
  | applyStatus status =>
    simp only [execute,bind_ok,require_ok] at executed
    obtain ⟨o,there,executed⟩ := executed
    cases executed
    refine ⟨fun other declared => ?_,fun _ => id⟩
    obtain ⟨written,recorded,says_⟩ := declared
    rcases List.mem_cons.mp recorded with rfl | recorded
    · rcases saysUnstarted_overlay says_ with own | old
      · exact absurd own other
      · exact sound.merged o there (errorCode_without _ _ old)
    · exact ⟨written,recorded,says_⟩
  | mergeStatus version status =>
    simp only [execute,bind_ok,require_ok,ensure_ok] at executed
    obtain ⟨o,there,_,rfl,executed⟩ := executed
    cases executed
    refine ⟨fun other declared => ?_,fun _ => id⟩
    obtain ⟨written,recorded,says_⟩ := declared
    rcases List.mem_cons.mp recorded with rfl | recorded
    · obtain ⟨c,served,version,unset,_⟩ := needs.2.2.1 (by simp [job])
      obtain rfl := ((sound.newest o there).2 c served).2 version
      rw [unset] at says_
      rcases saysUnstarted_overlay says_ with own | old
      · exact absurd own other
      · cases old
    · exact ⟨written,recorded,says_⟩
  | createJob seen =>
    cases executed
    exact ⟨fun _ => id,fun other => absurd trivial other⟩
  | deleteJob =>
    simp only [execute,bind_ok] at executed
    obtain ⟨_,_,executed⟩ := executed
    cases executed
    exact ⟨fun _ => id,fun _ => id⟩
  | happens change =>
    cases executed
    exact ⟨fun _ => id,fun _ none_ => by rw [none_]; rfl⟩
  | startNative reference =>
    cases executed
    exact ⟨fun _ => id,fun _ => id⟩
  | deleteAction =>
    simp only [execute,bind_ok] at executed
    obtain ⟨_,_,executed⟩ := executed
    cases executed
    exact ⟨fun _ => id,fun _ => id⟩
  | tick seconds =>
    cases executed
    exact ⟨fun _ => id,fun _ => id⟩

/-- Where no pass looks for the Job between the look and the write of one that goes
    the other way, a record that nothing was run is true: no Job exists, then and
    afterwards, and no command is started. -/
theorem nothing_was_run (restricted : Restricted execute unavailable code (creation.world now) Fenced config)
    (declared : Declared config.state) : config.state.job = none ∧ config.state.natives = [] := by
  obtain ⟨sound,_⟩ := sound_run restricted
  cases kind : route creation.object.spec.action with
  | direct => exact ⟨sound.jobless (by simp [kind]),sound.commandless (by simp [kind])⟩
  | native => exact ⟨sound.jobless (by simp [kind]),sound.uncommanded declared⟩
  | job =>
    refine ⟨?_,sound.commandless (by simp [kind])⟩
    have enters : ∀ config, Restricted execute unavailable code (creation.world now) Fenced config → ∀ entry ∈ config.pool,
        entry.code.Enters (Sound creation.object.spec) (fun statement => Creates statement ∨ Declares statement)
          fun world => world.job = none :=
      fun config restricted => restricted.enters (fun _ restricted => (sound_run restricted).1) fun request => (looks kind request).2
    have begins : ∀ request, ¬ (code request).About Creates ∧ ¬ (code request).About Declares := fun request =>
      ⟨fun about => (looks kind request).1 (about.mono fun _ => .inl),fun about => (looks kind request).1 (about.mono fun _ => .inr)⟩
    refine (restricted.roles Creates Declares (fun world => ¬ Declared world) (fun world => world.job = none)
      (fun world => Declared world → world.job = none) (fun _ => rfl) begins ?_).1 declared
    intro config entry did after rest restricted member allowed step holds own opposite
    obtain ⟨sound,pool⟩ := sound_run restricted
    have enters := enters config restricted entry member
    have upholds := pool entry member
    rw [Fenced] at allowed
    generalize entry.code = call at step own opposite enters upholds allowed
    -- After its write a call is in neither role.
    have leaves : ∀ {rest : Call World Statement Failure Statement.Answer (Except Failure Unit)},
        ¬ rest.About (fun statement => Creates statement ∨ Declares statement) →
          ¬ rest.About Creates ∧ ¬ rest.About Declares :=
      fun out => ⟨fun about => out (about.mono fun _ => .inl),fun about => out (about.mono fun _ => .inr)⟩
    cases step with
    | answer result => exact ⟨holds,fun _ => id,fun _ => id,False.elim,False.elim⟩
    | read next =>
      obtain ⟨creating,declaring⟩ := allowed next rfl
      refine ⟨holds,fun _ => id,fun _ => id,fun about => ?_,fun about => ?_⟩
      · have keeps := upholds config.state (.refl _) sound
        cases ahead : next config.state with
        | done result => exact (ahead ▸ about : (Call.done result).About Creates).elim
        | read further => exact (ahead ▸ about : (Call.read further).About Creates).elim
        | write statement rest =>
          rw [ahead] at about keeps
          cases statement with
          | createJob seen =>
            obtain ⟨⟨o,there,same⟩,alone⟩ := creating seen rest ahead
            have unset : seen = none := (keeps config.state (.refl _) sound).1.2
            exact ⟨(sound.unclaimed there (same.trans unset)).2,alone⟩
          | _ => exact about.elim
      · exact ⟨(enters config.state sound).1 (about.mono fun _ => .inr),declaring about⟩
    | commit statement next _ answer after executed =>
      obtain ⟨undeclared,jobless⟩ := job_step sound kind (upholds config.state (.refl _) sound).1 executed
      obtain ⟨notCreates,notDeclares⟩ := leaves (enters (.ok answer)).1
      refine ⟨fun declared => ?_,fun other free declared => free (undeclared other declared),fun other none_ => jobless other none_,
        fun about => absurd about notCreates,fun about => absurd about notDeclares⟩
      by_cases creates : Creates statement
      · have apart : ¬ Declares statement := by
          cases statement with
          | createJob => exact id
          | _ => exact creates.elim
        exact absurd (undeclared apart declared) (own creates)
      · by_cases declares : Declares statement
        · exact jobless creates (opposite declares)
        · exact jobless creates (holds (undeclared declares declared))
    | fail statement next _ error =>
      obtain ⟨notCreates,notDeclares⟩ := leaves (enters (.error error)).1
      exact ⟨holds,fun _ => id,fun _ => id,fun about => absurd about notCreates,fun about => absurd about notDeclares⟩
    | refuse statement next =>
      obtain ⟨notCreates,notDeclares⟩ := leaves (enters (.error unavailable)).1
      exact ⟨holds,fun _ => id,fun _ => id,fun about => absurd about notCreates,fun about => absurd about notDeclares⟩
end

section
open Proofstorm.Bridge (sampleWire)

def sampleSpec : Spec :=
  ⟨none,"cell","local","instance","i0","experiment","session","p",1,"op","sha256:request",.componentForensics,0,
    .other "component_forensics" (.object [])⟩

def sampleCreation : Creation where
  object :=
    { name := "action-op"
      labels := []
      annotations := []
      spec := sampleSpec
      uid := 0
      creationTimestamp := 0
      status := none
      resourceVersion := 1
      generation := some 1
      merged := emptyStatus }
  unset := rfl
  unmerged := rfl

/-- Nothing is refused. -/
def sampleFindings : Findings := ⟨true,false,true,true,none,none,none,none,none,.busy,.busy⟩

/-- The one call in progress does not come to create the Job of an action whose status is another. -/
def current (config : Config) : Bool :=
  match config.pool with
  | [entry] =>
    match entry.code with
    | .read next =>
      match next config.state with
      | .write (.createJob seen) _ => config.state.action.any fun o => o.status = seen
      | _ => true
    | _ => true
  | _ => false

theorem current_fenced {config : Config} (shown : current config = true) {entry : Entry} (alone : config.pool = [entry]) :
    Fenced config entry := by
  intro next reads
  have idle : ∀ (role : Statement → Prop), ∀ other ∈ config.pool, ¬ other.code.About role := by
    intro role other member
    rw [alone] at member
    rw [List.mem_singleton.mp member,reads]
    exact id
  refine ⟨fun seen rest ahead => ⟨?_,idle Declares⟩,fun _ => idle Creates⟩
  simp only [current,alone,reads,ahead,Option.any_eq_true,decide_eq_true_eq] at shown
  exact shown

/-- The action expires, and is given to another pass as it was before. -/
def expired : Config :=
  Config.inTurn execute code [(.tick 121,1),(.reconcile 0 sampleFindings,4),(.reconcile 0 sampleFindings,2)]
    ⟨sampleCreation.world 0,[],[]⟩

theorem expired_fenced : Restricted execute unavailable code (sampleCreation.world 0) Fenced expired :=
  Restricted.inTurn (fun _ _ _ shown alone => current_fenced shown alone) _ .initial (by decide +kernel)

theorem nothing_was_run_expired : Declared expired.state ∧ expired.state.job = none ∧ expired.state.natives = [] := by
  have declared : Declared expired.state := by
    have recorded : ∃ status ∈ expired.state.recorded, SaysUnstarted status := by decide +kernel
    exact recorded
  exact ⟨declared,nothing_was_run expired_fenced declared⟩

/-- A pass looks for the Job in time, another gives the action up after the
    deadline, and the first creates the Job. -/
def crossed : Config :=
  play execute code (sampleCreation.world 0) [.start (.reconcile 0 sampleFindings),.perform 0,.perform 0,.perform 0,
    .start (.tick 121),.finish 0,.start (.reconcile 0 sampleFindings),.finish 0,.finish 0]

/-- Of an action that is executed it can be recorded that nothing was run. -/
theorem something_was_run : ¬ ∀ (_ : Wire) (creation : Creation) (now : Int) (config : Config),
    Reachable execute unavailable code (creation.world now) config → Declared config.state →
      config.state.job = none ∧ config.state.natives = [] := by
  intro always
  have seen : (∃ status ∈ crossed.state.recorded, SaysUnstarted status) ∧ crossed.state.job ≠ none := by decide +kernel
  exact seen.2 (always sampleWire sampleCreation 0 crossed (.play _) seen.1).1
end

end Proofstorm.Unstarted
