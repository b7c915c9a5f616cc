import Proofstorm.Updating.Runs

/-!
What the calls keep to, and the results about all runs. A generation is only
marked applied after the controller has reported the resource of that generation
ready (`applied_converged`), and the resource follows the accepted history
(`resource_refines`).
-/
namespace Proofstorm.Updating
open Proofstorm.Core
open Proofstorm.Actions (CellPhase Failure unavailable)
open Proofstorm.Interleaving

/-- What a pass has read of the journal: a generation with the revision accepted
    then, of which nothing is listed by a pending update of that generation or before. -/
structure Wanted (journal : Journal) (db : Store.Db) (generation : Nat) (revision : PublishedRevision) : Prop where
  known : journal.Known revision
  accepted : journal.AcceptedAt db generation revision.digest
  reached : generation ≤ journal.generation db
  clean : ∀ update, journal.Has db update → journal.applied db < update.generation → update.generation ≤ generation →
    ∀ c ∈ update.plan.changes.deletedData, c ∉ revision.cell.ids

section
variable {journal : Journal} {db after : Store.Db} {generation : Nat} {revision : PublishedRevision}

theorem Wanted.later (wanted : Wanted journal db generation revision) (grows : journal.Grows db after) :
    Wanted journal after generation revision := by
  refine ⟨wanted.known,wanted.accepted.later grows,wanted.reached.trans grows.generation,
    fun update has pending within c listed => ?_⟩
  rcases grows.added update has with old | new
  · exact wanted.clean update old (Nat.lt_of_le_of_lt grows.applied pending) within c listed
  · exact absurd (within.trans wanted.reached) (Nat.not_le.mpr new)

theorem Wanted.coherent (wanted : Wanted journal db generation revision) {cell : Cell} (desired : cell.desired = generation)
    (spec : cell.spec = specOf journal.row.workspaceId journal.row.id journal.row.instanceKey revision) :
    Coherent journal db cell :=
  ⟨desired ▸ wanted.reached,revision,wanted.known,desired ▸ wanted.accepted,spec⟩

theorem Journal.Tracked.wanted {row : Store.InstanceRow} (tracked : journal.Tracked db row) (known : journal.Known revision)
    (same : revision.digest = row.revisionDigest) : Wanted journal db (journal.generation db) revision :=
  ⟨known,same ▸ tracked.current,le_rfl,fun _ has pending _ _ listed => tracked.clean known same has pending listed⟩

theorem Journal.Tracked.read {row : Store.InstanceRow} (tracked : journal.Tracked db row) {workspace digest : String}
    (found : Store.revisionUnchecked workspace digest db = .ok revision) :
    journal.Known revision ∧ revision.digest = digest ∧ revision.workspaceId = workspace := by
  obtain ⟨stored,member,named,home,rfl⟩ := Store.revisionUnchecked_ok.mp found
  rw [tracked.revisions] at member
  obtain ⟨digest,publisher⟩ := journal.stored stored member
  exact ⟨⟨stored,member,rfl⟩,digest.trans named,publisher.trans home⟩

variable [CoreFunctions] {workspace principal id : String}

theorem readDesired_ok {desired : Desired}
    (ran : ((readDesired workspace principal id).run.run Store.execute db).1 = .ok desired) :
    Store.instanceUnchecked workspace id db = .ok desired.cell ∧ desired.state = Store.updateState workspace id db ∧
      ∀ revision, desired.revision = some revision →
        Store.revisionUnchecked workspace desired.cell.revisionDigest db = .ok revision := by
  simp only [readDesired,Store.readInstance,Store.readUpdateState,Store.revisionForMaterialize,bind_assoc,run_query_ok,
    Except.ok.injEq] at ran
  obtain ⟨_,_,cell,read,_,_,state,rfl,ran⟩ := ran
  split at ran
  · cases ran
    exact ⟨read,rfl,fun _ none => nomatch none⟩
  · simp only [run_query_ok] at ran
    obtain ⟨_,_,revision,found,ran⟩ := ran
    cases ran
    refine ⟨read,rfl,?_⟩
    rintro _ ⟨⟩
    exact found

theorem pendingDeletedData_ok {deleted : List String}
    (ran : ((Store.pendingDeletedData workspace principal id).run.run Store.execute db).1 = .ok deleted) :
    ∀ c, c ∈ deleted ↔ ∃ update ∈ db.cellUpdates, update.workspaceId = workspace ∧ update.instanceId = id ∧
      (Store.updateState workspace id db).appliedGeneration < update.generation ∧ c ∈ update.plan.changes.deletedData := by
  simp only [Store.pendingDeletedData,run_query_ok] at ran
  obtain ⟨_,_,read⟩ := ran
  obtain ⟨_,stored,same⟩ := bind_ok.mp read
  obtain ⟨_,rfl⟩ := Store.sqlVersion_ok.mp stored
  obtain rfl := Except.ok.inj same
  intro c
  simp only [Store.deletedAbove,mem_sortDedup,List.mem_flatMap,Store.mem_pendingPlans]
  constructor
  · rintro ⟨_,⟨update,member,home,named,pending,rfl⟩,listed⟩
    exact ⟨update,member,home,named,pending,listed⟩
  · rintro ⟨update,member,home,named,pending,listed⟩
    exact ⟨_,⟨update,member,home,named,pending,rfl⟩,listed⟩

omit [CoreFunctions] in
/-- Where a status makes an instance ready, it says so of its generation and revision. -/
theorem statusFromResource_ready {cell : CellInstance} {resource : Cell} {fresh : Bool}
    (ready : statusFromResource cell resource fresh = .ready) : ∃ status, resource.status = some status ∧
      status.phase = .ready ∧ status.observedDesiredGeneration = cell.generation ∧
      status.observedRevisionDigest = cell.revisionDigest := by
  cases there : resource.status with
  | none => simp [statusFromResource,there,CellStatus.default] at ready
  | some status =>
    refine ⟨status,rfl,?_⟩
    simp only [statusFromResource,there,Option.getD_some] at ready
    by_cases stale : status.phase = .ready ∧ fresh = false
    · simp [stale] at ready
    · rw [if_neg stale] at ready
      split at ready
      · exact nomatch ready
      · rename_i agrees
        rcases not_and_or.mp agrees with agrees | other
        · push Not at agrees
          exact ⟨ready,agrees.1,agrees.2.1⟩
        · exact absurd ready other
end

section
variable [CoreFunctions] {journal : Journal} {strict : Prop} {world : World} {generation : Nat} {revision : PublishedRevision}
  {resource : Cell} {cell : CellInstance}

/-- The call keeps to its part from this state on. -/
abbrev Keeping (journal : Journal) (strict : Prop) (call : Program Unit) (world : World) : Prop :=
  call.run.Upholds execute (fun call world => Sound journal strict world ∧ (strict → Undivided journal call world))
    (Later journal) (Needs journal strict) world

theorem keeping_acknowledge (sound : Sound journal strict world) (seen : Seen world resource)
    (current : cell.generation = generation) (fresh : Bool) :
    Keeping journal strict (acknowledge journal.row.workspaceId journal.row.id cell generation fresh resource) world := by
  rw [acknowledge]
  split
  · rename_i ready
    obtain ⟨status,there,phase,observed,_⟩ := statusFromResource_ready ready
    obtain ⟨copy,member⟩ := seen status there phase
    obtain ⟨coherent,agrees⟩ := sound.reports _ member
    have desired : copy.desired = generation := (agrees phase).1.symm.trans (observed.trans current)
    obtain ⟨_,revision,known,accepted,spec⟩ := coherent
    have reported : Reported journal world generation :=
      ⟨_,member,phase,desired,revision,known,desired ▸ accepted,spec⟩
    intro now steps holds
    refine ⟨⟨⟨rfl,rfl⟩,fun marked => ?_⟩,fun _ _ _ _ => trivial,fun _ => trivial⟩
    have newest : generation = journal.generation now.journal := (Prod.mk.inj (Prod.mk.inj (Option.some.inj marked)).2).2
    exact newest ▸ reported.later steps
  · exact True.intro

/-- The version fences the replacement: the resource is as it was read, whose generation is not later. -/
theorem keeping_writeCell {principal : String} (there : world.cell = some resource)
    (forward : resource.desired ≤ generation) (wanted : Wanted journal world.journal generation revision) (current : cell.generation = generation)
    (key : cell.instanceKey = journal.row.instanceKey) (fresh : Bool) :
    Keeping journal strict
      (writeCell journal.row.workspaceId principal journal.row.id cell generation revision fresh resource) world := by
  rw [Keeping,writeCell]
  refine .afterQuery fun read deleted steps holds listed => ?_
  have belongs : strict → ∀ c ∈ deleted, c ∉ revision.cell.ids ∧ ∃ update, journal.Has read.journal update ∧
      update.generation ≤ generation ∧ c ∈ update.plan.changes.deletedData := by
    intro met c member
    obtain ⟨update,stored,home,named,pending,lists⟩ := (pendingDeletedData_ok (mapError_ok.mp listed) c).mp member
    have has : journal.Has read.journal update := ⟨stored,home,named⟩
    by_cases within : update.generation ≤ generation
    · exact ⟨(wanted.later steps.grows).clean update has pending within c lists,update,has,within,lists⟩
    · have none := holds.2 met principal cell generation revision fresh resource rfl update has (Nat.lt_of_not_le within)
      rw [none] at lists
      exact nomatch lists
  have allowed : ∀ now, Later journal read now → Sound journal strict now → Needs journal strict (.replace
      { resource with
        spec := specOf journal.row.workspaceId journal.row.id cell.instanceKey revision
        desiredGeneration := some generation
        deleteData := some deleted }) now := by
    intro now more sound
    have step := steps.trans more
    refine ⟨(wanted.later step.grows).coherent rfl (key ▸ rfl),fun found present same => ?_,?_⟩
    · obtain ⟨next,also,_,_,stays⟩ := step.cell resource there
      obtain rfl : found = next := Option.some.inj (present.symm.trans also)
      exact (stays same) ▸ forward
    · rintro met _ ⟨⟩ c member
      obtain ⟨absent,update,has,rest⟩ := belongs met c member
      exact ⟨absent,update,more.grows.kept update has,rest⟩
  refine .afterSubmit (fun now more holds => allowed now more holds.1) fun now answer after more holds executed moved => ?_
  have next := (holds.1.step (allowed now more holds.1) executed).1
  have written : after.cell = some answer := by
    simp only [execute] at executed
    split at executed
    · cases executed
    · split at executed
      · cases executed
        rfl
      · cases executed
  exact keeping_acknowledge next (next.seen answer written) current fresh

omit [CoreFunctions] in
theorem Sound.read (sound : Sound journal strict world)
    (found : Store.instanceUnchecked journal.row.workspaceId journal.row.id world.journal = .ok cell) :
    cell.generation = journal.generation world.journal ∧ cell.instanceKey = journal.row.instanceKey ∧
      ∃ row, journal.Tracked world.journal row ∧ cell.revisionDigest = row.revisionDigest := by
  obtain ⟨row,tracked⟩ := sound.tracked
  obtain ⟨other,member,home,named,rfl⟩ := Store.instanceUnchecked_ok.mp found
  obtain rfl : other = row := Table.eq_of_key member tracked.live
    (Prod.ext (home.trans tracked.home.symm) (named.trans tracked.named.symm))
  exact ⟨rfl,tracked.incarnation,other,tracked,rfl⟩

theorem keeping_reconcileOnce (principal : String) (fresh : Bool) :
    Keeping journal strict (reconcileOnce journal.row.workspaceId principal journal.row.id fresh) world := by
  rw [Keeping,reconcileOnce]
  refine .afterQuery fun first desired _ holds ran => ?_
  obtain ⟨read,state,found⟩ := readDesired_ok (mapError_ok.mp ran)
  obtain ⟨current,key,row,tracked,same⟩ := holds.1.read read
  split
  · exact True.intro
  · rename_i revision published
    obtain ⟨known,digest,_⟩ := tracked.read (found revision published)
    have wanted : Wanted journal first.journal desired.state.generation revision := by
      rw [state]
      exact tracked.wanted known (digest.trans same)
    have current : desired.cell.generation = desired.state.generation := by
      rw [current,state]
      rfl
    refine .afterQuery fun now there steps holds found => ?_
    obtain rfl : now.cell = there := Except.ok.inj found
    split
    · exact True.intro
    · rename_i resource there
      refine .afterSettle fun _ _ => .afterSettle fun _ newest => ?_
      split
      · exact keeping_writeCell there (Nat.le_of_not_lt (ensure_ok.mp newest)) (wanted.later steps.grows) current key fresh
      · exact keeping_acknowledge holds.1 (holds.1.seen resource there) current fresh

theorem keeping_waitOnce (principal key : String) (expected : Option Nat) (fresh : Bool) :
    Keeping journal strict (waitOnce journal.row.workspaceId principal journal.row.id key expected fresh) world := by
  rw [Keeping,waitOnce]
  refine .afterQuery fun first cell _ holds ran => .afterSettle fun _ _ => .afterQuery fun now there steps holds found => ?_
  obtain rfl : now.cell = there := Except.ok.inj found
  split
  · exact True.intro
  · rename_i resource there
    refine .afterSettle fun _ _ => ?_
    split
    · exact True.intro
    · exact keeping_acknowledge holds.1 (holds.1.seen resource there) rfl fresh

variable {copy : Cell}

theorem keeping_patchStatus {status : CellStatus} (coherent : Coherent journal world.journal copy)
    (agrees : Matches copy status) : Keeping journal strict (patchStatus copy status) world := by
  rw [Keeping,patchStatus]
  split
  · exact True.intro
  · exact fun now steps _ => ⟨⟨coherent.later steps.grows,agrees⟩,fun _ _ _ _ => True.intro,fun _ => True.intro⟩

theorem keeping_patchStatus_bind {status : CellStatus} {k : Unit → Program Unit}
    (coherent : Coherent journal world.journal copy) (agrees : Matches copy status)
    (then_ : ∀ after, Later journal world after → Keeping journal strict (k ()) after) :
    Keeping journal strict (patchStatus copy status >>= k) world := by
  rw [patchStatus]
  split
  · exact then_ world (.refl journal world)
  · exact .afterSubmit (fun now steps _ => ⟨coherent.later steps.grows,agrees⟩)
      fun now _ after steps _ _ moved => then_ after (steps.trans moved)

omit [CoreFunctions] in
theorem intendedStatus_pending {status : CellStatus} (intended : intendedStatus copy = some status) :
    status.phase = .pending := by
  rw [intendedStatus] at intended
  split at intended
  · cases intended
    rfl
  · exact nomatch intended

theorem keeping_course {before : Cell} (course : Course) (coherent : Coherent journal world.journal copy)
    (former : Coherent journal world.journal before) : Keeping journal strict (match course with
      | .observed ready => patchStatus copy (observedStatus copy ready)
      | .failed => patchStatus before (reconciliationFailureStatus before)
      | .silent => pure ()) world := by
  cases course with
  | observed ready => exact keeping_patchStatus coherent fun _ => ⟨rfl,rfl⟩
  | failed => exact keeping_patchStatus former fun ready => nomatch ready
  | silent => exact True.intro

theorem keeping_reconcileCell (applied : Bool) (course : Course) :
    Keeping journal strict (reconcileCell applied course) world := by
  rw [Keeping,reconcileCell]
  refine .afterQuery fun now there _ holds found => ?_
  obtain rfl : now.cell = there := Except.ok.inj found
  split
  · exact True.intro
  · rename_i copy there
    have coherent := holds.1.cell copy there
    cases intended : if applied = true then none else intendedStatus copy with
    | none =>
      simp only [pure_bind]
      exact keeping_course course coherent coherent
    | some status =>
      have pending := intendedStatus_pending (Option.ite_none_left_eq_some.mp intended).2
      simp only [pure_bind]
      refine keeping_patchStatus_bind coherent (fun ready => nomatch pending.symm.trans ready) fun after later => ?_
      have still := coherent.later later.grows
      have reported : Coherent journal after.journal { copy with status := some status } := still
      exact keeping_course course reported still

theorem keeping_acceptUpdate (workspace principal : String) (plan : CellUpdatePlan) (key : String) (now : Int) :
    Keeping journal strict (do
      let _ ← store (Store.acceptUpdate workspace principal plan key now)
      pure ()) world := by
  have keeps : Interleaving.Keeps (fun db => ∃ row, journal.Tracked db row)
      (fun statement => journal.Permitted statement ∧ marks statement = none)
      (Store.acceptUpdate workspace principal plan key now) fun _ => True := by
    simp only [Store.acceptUpdate,keeps_bind,keeps_query,keeps_settle,ensure_ok,mapError_ok]
    intro _ _ _ _ _ _ _ _ _ supported _ tracked revision readNew _ trackedOld old readOld verified built _ same
    obtain ⟨_,tracked⟩ := tracked
    obtain ⟨_,trackedOld⟩ := trackedOld
    obtain ⟨known,_,home⟩ := tracked.read readNew
    obtain ⟨knownOld,_,homeOld⟩ := trackedOld.read readOld
    have describes : plan.Describes old revision := same ▸ (new_describes built).1.bindInstance plan.instanceKey
    have permitted : journal.Permitted (.acceptUpdate workspace principal key plan revision now) :=
      ⟨supported,known,home,old,knownOld,homeOld,describes⟩
    simp [permitted,marks]
  have whole : Interleaving.Keeps (fun world : World => Sound journal strict world)
      (fun statement => ∃ inner, statement = .journal inner ∧ journal.Permitted inner ∧ marks inner = none)
      (do
        let _ ← store (Store.acceptUpdate workspace principal plan key now)
        pure ()) fun _ => True := by
    rw [keeps_bind]
    refine keeps_mono (keeps_part keeps (fun world sound => sound.tracked) fun inner allowed => ⟨inner,rfl,allowed⟩) ?_
    exact fun _ _ => by simp
  refine Call.Within.upholds whole (fun _ _ holds => holds.1) ?_ world
  rintro _ world _ ⟨inner,rfl,permitted,silent⟩
  exact ⟨permitted,fun marked => by cases silent.symm.trans marked⟩

theorem keeping (request : Request) : Keeping journal strict (body journal request) world := by
  cases request with
  | acceptUpdate workspace principal plan key now => exact keeping_acceptUpdate workspace principal plan key now
  | reconcile principal fresh => exact keeping_reconcileOnce principal fresh
  | wait principal key expected fresh => exact keeping_waitOnce principal key expected fresh
  | controller applied course => exact keeping_reconcileCell applied course
end

/-! ### All runs -/

section
variable [CoreFunctions] {journal : Journal} {strict : Prop} {deployment : Deployment journal} {config : Config}

omit [CoreFunctions] in
theorem Deployment.sound (deployment : Deployment journal) : Sound journal strict deployment.world := by
  have coherent : Coherent journal journal.db deployment.cell := by
    refine ⟨deployment.first ▸ journal.tracked.generation_pos,journal.revision,journal.published,?_,deployment.spec⟩
    exact .inl ⟨deployment.first,journal.current⟩
  exact
    { tracked := ⟨journal.row,journal.tracked⟩
      cell := by rintro _ ⟨⟩; exact coherent
      seen := by rintro _ ⟨⟩ status there; exact nomatch deployment.unobserved.symm.trans there
      reports := fun _ member => nomatch member
      applied := .inl journal.quiet.2.2
      deletions := by rintro _ _ ⟨⟩ listed there; exact nomatch deployment.undeleted.symm.trans there }

theorem sound_run {may : Config → Interleaving.Running Request World Statement Failure Statement.Answer (Except Failure Unit) → Prop}
    (restricted : Restricted execute unavailable (code journal) deployment.world may config)
    (implied : ∀ config entry, may config entry → strict → Undivided journal entry.code config.state) :
    Sound journal strict config.state ∧ ∀ event ∈ config.log, Sound journal strict event.before ∧
      Sound journal strict event.after ∧ Later journal event.before event.after ∧
      ∀ statement, event.did = some statement → Needs journal strict statement event.before := by
  obtain ⟨holds,_,log⟩ := restricted.upheld (Sound journal strict)
    (fun call world => strict → Undivided journal call world) (fun _ => Needs journal strict) implied
    deployment.sound (Later.refl journal) (fun _ _ _ => Later.trans) (fun request _ _ => keeping request)
    fun _ _ _ _ _ sound needs executed => sound.step needs executed
  refine ⟨holds,fun event member => ?_⟩
  obtain ⟨before,after,step,_,did⟩ := log event member
  exact ⟨before,after,step,did⟩

/-- Only the newest generation is marked, and only where it was reported. -/
theorem marked {before after : World} {statement : Statement} {answer : statement.Answer}
    (sound : Sound journal strict before) (needs : Needs journal strict statement before)
    (executed : execute statement before = .ok (answer,after)) :
    journal.applied after.journal = journal.applied before.journal ∨
      journal.applied after.journal = journal.generation before.journal ∧
        Reported journal before (journal.generation before.journal) := by
  cases statement with
  | journal statement =>
    simp only [execute] at executed
    split at executed
    · rename_i committed
      cases executed
      obtain ⟨row,tracked⟩ := sound.tracked
      rcases (tracked.step needs.1 committed).2.2 with same | ⟨converged,rfl,newest⟩
      · exact .inl same
      · exact .inr ⟨newest,needs.2 rfl⟩
    · cases executed
  | replace body =>
    simp only [execute] at executed
    split at executed
    · cases executed
    · split at executed
      · cases executed
        exact .inl rfl
      · cases executed
  | patchStatus copy status =>
    simp only [execute] at executed
    split at executed
    · cases executed
    · cases executed
      exact .inl rfl

end

section
attribute [local instance] CoreFunctions.sample

/-- An update is accepted, brought to the cluster, reported ready and acknowledged. -/
def converged : Config :=
  play execute (code sampleJournal) sampleDeployment.world
    ((sampleAccept "k2" ⟨"cell-1",1,true,[]⟩ ["alice","bob"] ["alice","carol"] ++
      [Request.reconcile "p" true,.controller true (.observed true),.wait "p" sampleRow.instanceKey none true]).flatMap fun request =>
        [.start request,.finish 0])

end

section
variable [CoreFunctions] {journal : Journal} {deployment : Deployment journal} {config : Config}

/-- Where no update that deletes data is accepted between the reads of a pass, the
    resource is that of the generation it names, and what it lists for deletion is
    data that updates up to that generation delete and that it does not have. -/
theorem resource_refines (restricted : Restricted execute unavailable (code journal) deployment.world
      (fun config entry => Undivided journal entry.code config.state) config) :
    (∀ cell, config.state.cell = some cell →
      Coherent journal config.state.journal cell ∧ Deletable journal config.state.journal cell) ∧
    ∀ event ∈ config.log, ∀ cell, event.before.cell = some cell →
      ∃ next, event.after.cell = some next ∧ cell.desired ≤ next.desired := by
  obtain ⟨sound,log⟩ := sound_run restricted fun _ _ met (_ : True) => met
  refine ⟨fun cell there => ⟨sound.cell cell there,sound.deletions True.intro cell there⟩,fun event member cell there => ?_⟩
  obtain ⟨next,after,forward,_⟩ := (log event member).2.2.1.cell cell there
  exact ⟨next,after,forward⟩
end

section
attribute [local instance] CoreFunctions.sample

/-- The next read of the one call in progress does not come before a body of a
    generation above which data is deleted. -/
def calm (config : Config) : Bool :=
  match config.pool with
  | [entry] =>
    match entry.code with
    | .read next =>
      match next config.state with
      | .write (.replace body) _ => config.state.journal.cellUpdates.rows.all fun update =>
        update.generation ≤ body.desired ∨ update.plan.changes.deletedData = []
      | .done (.error _) => false
      | _ => true
    | _ => true
  | _ => false

theorem calm_undivided {config : Config} (shown : calm config = true)
    {entry : Interleaving.Running Request World Statement Failure Statement.Answer (Except Failure Unit)}
    (alone : config.pool = [entry]) : Undivided sampleJournal entry.code config.state := by
  intro principal cell generation revision fresh resource same update has above
  rw [calm,alone] at shown
  simp only [same,writeCell,atOnce,Part.atOnce,query_bind] at shown
  cases listed : (((Store.pendingDeletedData sampleJournal.row.workspaceId principal sampleJournal.row.id).run.run Store.execute
      config.state.journal).1.mapError Failure.store) with
  | error error => simp [journalPart,listed,proceed] at shown
  | ok deleted =>
    simp only [journalPart,listed,proceed,submit_bind,List.all_eq_true,decide_eq_true_eq] at shown
    rcases shown update has.1 with within | none
    · exact absurd above (Nat.not_lt.mpr within)
    · exact none

/-- The update is accepted and brought to the cluster. -/
def followed : Config :=
  Config.inTurn execute (code sampleJournal)
    ((sampleAccept "k2" ⟨"cell-1",1,true,[]⟩ ["alice","bob"] ["alice","carol"]).map (fun accept => (accept,6)) ++
      [(.reconcile "p" true,4)]) ⟨sampleDeployment.world,[],[]⟩

theorem followed_undivided : Restricted execute unavailable (code sampleJournal) sampleDeployment.world
    (fun config entry => Undivided sampleJournal entry.code config.state) followed :=
  Restricted.inTurn (fun _ _ _ shown alone => calm_undivided shown alone) _ .initial (by decide +kernel)

theorem resource_refines_followed : ∃ cell, followed.state.cell = some cell ∧ cell.desired = 2 ∧ cell.deleteData = some ["bob"] ∧
    Coherent sampleJournal followed.state.journal cell ∧ Deletable sampleJournal followed.state.journal cell := by
  have written : ∃ cell ∈ followed.state.cell, cell.desired = 2 ∧ cell.deleteData = some ["bob"] := by decide +kernel
  obtain ⟨cell,there,desired,listed⟩ := written
  obtain ⟨coherent,deletable⟩ := (resource_refines followed_undivided).1 cell there
  exact ⟨cell,there,desired,listed,coherent,deletable⟩

/-- An update is accepted that deletes the data of `bob`, while a pass brings the update before it to the cluster. -/
def overtaken : Config :=
  play execute (code sampleJournal) sampleDeployment.world
    ((sampleAccept "k2" ⟨"cell-1",1,false,[]⟩ ["alice","bob"] ["alice","bob","carol"]).flatMap (fun accept =>
        [.start accept,.finish 0]) ++
      [.start (.reconcile "p" true),.perform 0,.perform 0] ++
      (sampleAccept "k3" ⟨"cell-1",2,true,[]⟩ ["alice","bob","carol"] ["alice","carol"]).flatMap (fun accept =>
        [.start accept,.finish 0]) ++
      [.finish 0])

/-- A cell can be told to delete the data of one of its components. -/
theorem resource_misleads : ¬ ∀ (_ : CoreFunctions) (journal : Journal) (deployment : Deployment journal) (config : Config),
    Reachable execute unavailable (code journal) deployment.world config → ∀ cell, config.state.cell = some cell →
      Coherent journal config.state.journal cell ∧ Deletable journal config.state.journal cell := by
  intro always
  have refines := always CoreFunctions.sample sampleJournal sampleDeployment overtaken (.play _)
  have misled : ∃ cell ∈ overtaken.state.cell, ∃ listed ∈ cell.deleteData, ∃ c ∈ listed, c ∈ cell.spec.cell.ids := by
    decide +kernel
  obtain ⟨cell,there,listed,annotated,c,member,present⟩ := misled
  exact ((refines cell there).2 listed annotated c member).1 present
end

end Proofstorm.Updating
