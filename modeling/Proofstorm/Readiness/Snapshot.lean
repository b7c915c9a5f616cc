import Proofstorm.Readiness.Admitted

/-!
Admission through a revision snapshot. The statuses that an action is admitted on were
recorded for the components of another revision, and are read against the plans of the
action's own.
-/
namespace Proofstorm.Readiness
open Proofstorm.Core Validation Publication Plans

/-! ### What is recorded -/

section
variable {plans : List ComponentPlanContract} {plan : ComponentPlanContract} {readings : ClusterReadings}
  {evidence : Evidence} {previous : List ComponentStatus} {down : List String} {observedAt : Int}

/-- A status of a component with the check that was current for its workload. -/
def Recorded (evidence : Evidence) (observedAt : Int) (status : ProbedStatus) : Prop :=
  (types status.conditions).Nodup ∧ ∃ plan : ComponentPlanContract, status.id = plan.componentId ∧
    status.observedRolloutDigest = plan.rolloutDigest ∧
    status.protocolObservation = (currentObservation plan evidence observedAt).map ProbeObservation.timing

theorem observed_recorded (readings : ClusterReadings) (evidence : Evidence) (previous : List ComponentStatus)
    (down : List String) (observedAt : Int) (installed : ∀ plan ∈ plans, Installed plan)
    (distinct : (plans.map ComponentPlanContract.componentId).Nodup) :
    ((observeProbedStatuses plans readings evidence previous down observedAt).map fun status => status.id).Nodup ∧
      ∀ status ∈ observeProbedStatuses plans readings evidence previous down observedAt,
        Recorded evidence observedAt status := by
  have contracted : ∀ plan ∈ plans, Contracted plan := fun plan member => (installed plan member).contracted
  obtain ⟨started,_⟩ := checked_started readings (checkedAt evidence observedAt) previous down observedAt installed distinct
  rw [probed_eq contracted distinct]
  constructor
  · rw [List.map_map]
    change (plans.map fun plan => (checkedStatus plans readings (checkedAt evidence observedAt) previous down observedAt
      plan).id).Nodup
    rw [List.map_congr_left started.named]
    exact distinct
  · intro status listed
    obtain ⟨plan,member,rfl⟩ := List.mem_map.mp listed
    have whole := started.whole plan member
    have is : (checkedStatus plans readings (checkedAt evidence observedAt) previous down observedAt plan).isOf plan = true :=
      finishStatus_isOf.trans (settledBy_isOf.trans (isOf_iff.mpr ⟨rfl,rfl,rfl⟩))
    exact ⟨whole.types ▸ (contracted plan member).nodup,plan,whole.id,(isOf_iff.mp is).2.2,rfl⟩

/-- The check of a component that a fresh status rests on. -/
theorem Recorded.checked {status : ProbedStatus} {now : Int} (recorded : Recorded evidence observedAt status)
    (fresh : status.protocolObservation.any (·.isFresh now) = true) : ∃ observation,
      evidence.protocol status.id = some observation ∧ observation.rolloutDigest = status.observedRolloutDigest ∧
        observation.timing.isFresh now = true := by
  obtain ⟨_,plan,named,rollout,timing⟩ := recorded
  rw [timing] at fresh
  rw [named,rollout]
  unfold currentObservation at fresh
  split at fresh
  · rename_i observation _ known _
    split_ifs at fresh with current
    · exact ⟨observation,known,current.1,fresh⟩
    · cases fresh
  · cases fresh

end

/-! ### What is taken over -/

/-- A change of the revision that a status is of. -/
def Relabels (change : ProbedStatus → ProbedStatus) : Prop :=
  ∀ status, (change status).id = status.id ∧ (change status).observedRolloutDigest = status.observedRolloutDigest ∧
    (change status).conditions = status.conditions ∧ (change status).protocolObservation = status.protocolObservation

theorem relabelStatus_relabels (lock : Publication.ResolvedLock) (revision : String) :
    Relabels (relabelStatus lock revision) := by
  intro status
  unfold relabelStatus
  split_ifs <;> exact ⟨rfl,rfl,rfl,rfl⟩

section
variable {digestJson : Json → String}
  {maps : (nameSpace name : String) → Except ControllerError (Option ProofstormCellSpec)}
  {action : ProofstormCellAction} {cell accepted : ProofstormCell} {change : ProbedStatus → ProbedStatus}
  {statuses : List ProbedStatus} {id : String}

theorem actionCell_ok (found : actionCell digestJson maps action cell = .ok accepted) :
    accepted = cell ∨ ∃ revision snapshot, accepted = cell.atRevision revision snapshot := by
  rw [actionCell] at found
  split at found
  · exact .inl (Except.ok.inj found).symm
  · rename_i revision _
    split_ifs at found
    · exact .inl (Except.ok.inj found).symm
    · simp only [bind_ok,require_ok,ensure_ok,pure_ok] at found
      obtain ⟨_,_,map,_,_,_,rfl⟩ := found
      cases map.filter fun snapshot => snapshot.instanceKey = cell.spec.instanceKey ∧ snapshot.revisionDigest = revision with
      | none => exact .inl rfl
      | some snapshot => exact .inr ⟨revision,snapshot,rfl⟩

/-- The statuses that an action is admitted on are those recorded, but for the revision they are of. -/
theorem currentStatuses_taken (found : actionCell digestJson maps action cell = .ok accepted) :
    accepted.currentStatuses = [] ∨ ∃ status change, cell.status = some status ∧ Relabels change ∧
      accepted.currentStatuses = status.components.map change := by
  have general : ∀ (held : Option ProofstormCellStatus) (revision : String),
      ((held.filter (·.observedRevisionDigest = revision)).map ProofstormCellStatus.components).getD [] = [] ∨
      ∃ status, held = some status ∧
        ((held.filter (·.observedRevisionDigest = revision)).map ProofstormCellStatus.components).getD [] = status.components := by
    intro held revision
    cases held with
    | none => exact .inl rfl
    | some status =>
      by_cases same : status.observedRevisionDigest = revision
      · refine .inr ⟨status,rfl,?_⟩
        simp only [Option.filter_some,same,decide_true,if_true,Option.map_some,Option.getD_some]
      · refine .inl ?_
        simp only [Option.filter_some,same,decide_false,Bool.false_eq_true,if_false,Option.map_none,Option.getD_none]
  obtain rfl | ⟨revision,snapshot,rfl⟩ := actionCell_ok found
  · refine (general accepted.status accepted.spec.revisionDigest).imp_right fun ⟨status,known,same⟩ => ?_
    exact ⟨status,fun status => status,known,fun _ => ⟨rfl,rfl,rfl,rfl⟩,same.trans (List.map_id' _).symm⟩
  · refine (general (cell.atRevision revision snapshot).status snapshot.revisionDigest).imp_right fun ⟨taken,known,same⟩ => ?_
    obtain ⟨status,held,rfl⟩ := Option.map_eq_some_iff.mp known
    exact ⟨status,relabelStatus snapshot.lock revision,held,relabelStatus_relabels _ _,same⟩

theorem statusOf_map (relabels : Relabels change) : statusOf (statuses.map change) id = (statusOf statuses id).map change := by
  rw [statusOf,statusOf,← List.map_reverse,List.find?_map]
  congr 2
  funext status
  rw [Function.comp_apply,(relabels status).1]

theorem stopped_relabelled (relabels : Relabels change) (status : ProbedStatus) : (change status).stopped = status.stopped := by
  rw [ProbedStatus.stopped,ProbedStatus.stopped,(relabels status).2.2.1]

variable {plans : List ComponentPlanContract} {plan : ComponentPlanContract} {recorded : List ProbedStatus} {now : Int}
  {wanted : ComponentConditionType} {evidence : Evidence} {observedAt : Int}

theorem leans_relabelled (relabels : Relabels change) {next : String} :
    Leans plans (recorded.map change) id next ↔ Leans plans recorded id next := by
  refine exists_congr fun plan => and_congr_right fun _ => and_congr_right fun _ => and_congr_right fun _ =>
    and_congr_left fun _ => ?_
  rw [statusOf_map relabels]
  constructor
  · rintro ⟨status,found,running⟩
    obtain ⟨before,known,rfl⟩ := Option.map_eq_some_iff.mp found
    exact ⟨before,known,(stopped_relabelled relabels before).symm.trans running⟩
  · rintro ⟨status,found,running⟩
    exact ⟨change status,by rw [found]; rfl,(stopped_relabelled relabels status).trans running⟩

theorem readable_relabelled (relabels : Relabels change) (installed : ∀ plan ∈ plans, Installed plan)
    (distinct : (plans.map ComponentPlanContract.componentId).Nodup) (apart : (recorded.map fun status => status.id).Nodup)
    (known : ∀ status ∈ recorded, Recorded evidence observedAt status) : Readable plans (recorded.map change) := by
  refine ⟨installed,distinct,?_,fun status listed => ?_⟩
  · have same : ((fun status : ProbedStatus => status.id) ∘ change) = fun status => status.id :=
      funext fun status => (relabels status).1
    rw [List.map_map,same]
    exact apart
  · obtain ⟨before,member,rfl⟩ := List.mem_map.mp listed
    rw [(relabels before).2.2.1]
    exact (known before member).1

/-! ### Soundness -/

/-- The rollout of a component that a revision locks. -/
def Locks (lock : Publication.ResolvedLock) (id digest : String) : Prop :=
  ∃ entry, lock.entries.find? (·.componentId == id) = some entry ∧ entry.rolloutDigest = digest

instance (lock : Publication.ResolvedLock) (id digest : String) : Decidable (Locks lock id digest) :=
  decidable_of_iff ((lock.entries.find? (·.componentId == id)).map Publication.LockEntry.rolloutDigest = some digest)
    Option.map_eq_some_iff

/-- The components whose checks a condition of a component rests on: its own, and for its
    dependencies those it leads to over components that run. -/
def RestsOn (plans : List ComponentPlanContract) (recorded : List ProbedStatus) (wanted : ComponentConditionType)
    (id other : String) : Prop :=
  match wanted with
  | .protocolReady => id = other
  | .dependenciesReady => Relation.ReflTransGen (Leans plans recorded) id other
  | _ => False

/-- A condition of a component that was true of the workload its revision locks, when no
    check that it rests on had expired. -/
def Supported (lock : Publication.ResolvedLock) (plans : List ComponentPlanContract) (recorded : List ProbedStatus)
    (evidence : Evidence) (now : Int) (id : String) (wanted : ComponentConditionType) : Prop :=
  ∃ status ∈ recorded, status.id = id ∧ Locks lock id status.observedRolloutDigest ∧
    stateOf status.conditions wanted = .true ∧
    ∀ other, RestsOn plans recorded wanted id other → ∀ plan ∈ plans, plan.componentId = other →
      (protocolProbeOf plan).isSome = true → ∀ rested ∈ recorded, rested.id = other → rested.stopped = false →
      ∃ observation, evidence.protocol other = some observation ∧
        observation.rolloutDigest = rested.observedRolloutDigest ∧ observation.timing.isFresh now = true

theorem compiled_locks {revision : String} {effective : CellSpec} {lock : Publication.ResolvedLock}
    (compiled : compileComponentPlans revision effective lock = .ok plans) (member : plan ∈ plans) :
    Locks lock plan.componentId plan.rolloutDigest := by
  simp only [compileComponentPlans,bind_ok,mapM_ok,pure_ok] at compiled
  obtain ⟨unsorted,each,rfl⟩ := compiled
  have inside : plan ∈ unsorted := (List.perm_insertionSort _ unsorted).mem_iff.mp member
  obtain ⟨component,_,made⟩ := exists_of_mem_right each inside
  simp only [compileComponentPlan,bind_ok,require_ok,mapM_ok,invalidPlan_ok,compileContract,ensure_ok,pure_ok] at made
  obtain ⟨entry,found,_,_,_,_,_,_,_,_,_,_,_,_,_,_,_,_,_,_,rfl⟩ := made
  exact ⟨entry,found,rfl⟩

/-- What was not stale was checked in time. -/
theorem checked_of_fresh (relabels : Relabels change) (apart : (recorded.map fun status => status.id).Nodup)
    (known : ∀ status ∈ recorded, Recorded evidence observedAt status)
    (fresh : ¬ StaleAt plans (recorded.map change) now id) (member : plan ∈ plans) (named : plan.componentId = id)
    (probed : (protocolProbeOf plan).isSome = true) {rested : ProbedStatus} (listed : rested ∈ recorded)
    (is : rested.id = id) (running : rested.stopped = false) :
    ∃ observation, evidence.protocol id = some observation ∧ observation.rolloutDigest = rested.observedRolloutDigest ∧
      observation.timing.isFresh now = true := by
  subst is
  refine (known rested listed).checked ?_
  by_contra old
  refine fresh ⟨plan,member,named,change rested,?_,probed,(stopped_relabelled relabels rested).trans running,?_⟩
  · rw [statusOf_map relabels,statusOf_of_mem apart listed]
    rfl
  · rw [(relabels rested).2.2.2]
    exact Bool.eq_false_iff.mpr old

/-- A current status was recorded for the rollout of its plan. -/
theorem recorded_of_current (relabels : Relabels change) {status : ProbedStatus}
    (found : statusOf (recorded.map change) plan.componentId = some status) (is : status.isOf plan = true) :
    ∃ before ∈ recorded, before.id = plan.componentId ∧ before.observedRolloutDigest = plan.rolloutDigest ∧
      before.conditions = status.conditions := by
  rw [statusOf_map relabels] at found
  obtain ⟨before,known,rfl⟩ := Option.map_eq_some_iff.mp found
  obtain ⟨same,rollout,conditions,_⟩ := relabels before
  exact ⟨before,statusOf_mem known,statusOf_id known,rollout.symm.trans (isOf_iff.mp is).2.2,conditions.symm⟩

/-- What holds of a current status is supported by what was recorded. -/
theorem supported_of_holds {lock : Publication.ResolvedLock} (relabels : Relabels change)
    (apart : (recorded.map fun status => status.id).Nodup)
    (known : ∀ status ∈ recorded, Recorded evidence observedAt status) (locks : Locks lock plan.componentId plan.rolloutDigest)
    (own : wanted = .dependenciesReady → ¬ StaleAt plans (recorded.map change) now plan.componentId)
    (holds : Holds plans (recorded.map change) now plan wanted) :
    Supported lock plans recorded evidence now plan.componentId wanted := by
  obtain ⟨status,found,is,state,protocol,dependencies⟩ := holds
  obtain ⟨before,member,named,rollout,conditions⟩ := recorded_of_current relabels found is
  refine ⟨before,member,named,rollout ▸ locks,conditions ▸ state,fun other rests probed there reached probe rested listed at_ running => ?_⟩
  refine checked_of_fresh relabels apart known (fun stale => ?_) there reached probe listed at_ running
  cases wanted with
  | protocolReady =>
    obtain rfl : plan.componentId = other := rests
    exact protocol rfl stale
  | dependenciesReady =>
    have path : Relation.ReflTransGen (Leans plans recorded) plan.componentId other := rests
    obtain same | path := Relation.reflTransGen_iff_eq_or_transGen.mp path
    · exact own rfl (same ▸ stale)
    · exact dependencies rfl ⟨other,Relation.TransGen.mono (fun _ _ => (leans_relabelled relabels).mpr) _ _ path,stale⟩
  | _ => exact rests

/-- A component whose protocol was asked for is not stale. -/
theorem fresh_of_protocol {start : List ProbedStatus} (readable : Readable plans start) (member : plan ∈ plans)
    (satisfied : Satisfied plans start now plan .protocol) : ¬ StaleAt plans start now plan.componentId := by
  intro stale
  have same := stale
  obtain ⟨other,there,named,_,_,probed,_⟩ := same
  rw [List.inj_on_of_nodup_map readable.distinct there member named] at probed
  obtain ⟨_,_,_,_,fresh,_⟩ := satisfied.1 _ rfl ((readable.installed plan member).probed.mp probed)
  exact fresh rfl stale

/-- No contract asks for dependencies without asking for the protocol. -/
theorem dependencies_with_protocol : ∀ contract ∈ defaultOperationAdmission,
    .dependencies ∈ contract.prerequisites → .protocol ∈ contract.prerequisites := by
  decide

end

/-- What the admission of an action on a cell says, with these statuses recorded. -/
structure SnapshotAdmission (action : ProofstormCellAction) (cell : ProofstormCell) (recorded : List ProbedStatus)
    (evidence : Evidence) (now : Int) : Prop where
  /-- What each participant's contract demands, where it applies to it, was true of the workload
      that the action's revision locks, and had not expired. -/
  supported : ∃ plans, compileComponentPlans cell.spec.revisionDigest cell.spec.cell cell.spec.lock = .ok plans ∧
    ∀ participant ∈ actionParticipants action.spec.action, ∃ plan ∈ plans, plan.componentId = participant.1 ∧
      ∃ contract, (operationAdmissionOf plan).find? (·.operation == participant.2) = some contract ∧
        ∀ prerequisite ∈ contract.prerequisites,
          (∀ wanted, prerequisite.condition = some wanted → wanted ∈ plan.applicableConditions →
            Supported cell.spec.lock plans recorded evidence now participant.1 wanted) ∧
          (prerequisite = .workloadIdentity → ∃ status ∈ recorded, status.id = participant.1 ∧
            Locks cell.spec.lock participant.1 status.observedRolloutDigest)
  /-- It would have been admitted at every earlier time since the checks. -/
  earlier : ∀ before ≤ now,
    (∀ status ∈ recorded, ∀ timing ∈ status.protocolObservation, timing.observedAtUnix ≤ before) →
    evaluateActionAdmissionAt action cell before = .ok ()

/-- Admission through a revision snapshot is sound. -/
theorem snapshot_admission_sound (digestJson : Json → String)
    (maps : (nameSpace name : String) → Except ControllerError (Option ProofstormCellSpec)) (cell accepted : ProofstormCell)
    (spec : ProofstormCellSpec) (recordedPlans : List ComponentPlanContract) (readings : ClusterReadings)
    (evidence : Evidence) (previous : List ComponentStatus) (down : List String) (observedAt now : Int)
    (action : ProofstormCellAction)
    (recordedRevision : compileComponentPlans spec.revisionDigest spec.cell spec.lock = .ok recordedPlans)
    (recordedIds : spec.cell.ids.Nodup) (recorded : ∀ status ∈ cell.status, status.components =
      observeProbedStatuses recordedPlans readings evidence previous down observedAt)
    (found : actionCell digestJson maps action cell = .ok accepted) (ids : accepted.spec.cell.ids.Nodup)
    (admitted : evaluateActionAdmissionAt action accepted now = .ok ()) :
    SnapshotAdmission action accepted (observeProbedStatuses recordedPlans readings evidence previous down observedAt)
      evidence now := by
  have installed : ∀ {revision effective lock plans},
      compileComponentPlans revision effective lock = .ok plans → ∀ plan ∈ plans, Installed plan := by
    intro revision effective lock plans compiled plan member
    obtain ⟨_,_,_,made⟩ := (compileComponentPlans_ok compiled).2.1 plan member
    exact ⟨made.conditions,made.aggregation⟩
  have distinct : ∀ {revision lock plans} {effective : CellSpec}, effective.ids.Nodup →
      compileComponentPlans revision effective lock = .ok plans → (plans.map ComponentPlanContract.componentId).Nodup :=
    fun unique compiled => (compileComponentPlans_ok compiled).1.nodup_iff.mpr unique
  obtain ⟨apart,known⟩ := observed_recorded readings evidence previous down observedAt (installed recordedRevision)
    (distinct recordedIds recordedRevision)
  obtain ⟨plans,compiled⟩ := compiled_of_admitted admitted
  generalize observeProbedStatuses recordedPlans readings evidence previous down observedAt = kept at recorded apart known ⊢
  obtain ⟨change,relabels,taken⟩ : ∃ change, Relabels change ∧
      (accepted.currentStatuses = [] ∨ accepted.currentStatuses = kept.map change) := by
    obtain none | ⟨status,change,held,relabels,taken⟩ := currentStatuses_taken found
    · exact ⟨fun status => status,fun _ => ⟨rfl,rfl,rfl,rfl⟩,.inl none⟩
    · exact ⟨change,relabels,.inr (recorded status held ▸ taken)⟩
  have readable : Readable plans accepted.currentStatuses := by
    obtain none | taken := taken
    · rw [none]
      exact ⟨installed compiled,distinct ids compiled,List.nodup_nil,nofun⟩
    · rw [taken]
      exact readable_relabelled relabels (installed compiled) (distinct ids compiled) apart known
  have current : ∀ {id status}, statusOf accepted.currentStatuses id = some status →
      accepted.currentStatuses = kept.map change := by
    intro id status there
    refine taken.resolve_left fun none => ?_
    rw [none] at there
    cases there
  have asks := fun now => evaluateActionAdmissionAt_ok action now compiled readable
  obtain ⟨openCell,identity,admits,target⟩ := (asks now).mp admitted
  refine ⟨⟨plans,compiled,fun participant listed => ?_⟩,fun before earlier observed => ?_⟩
  · obtain ⟨plan,there,contract,contracted,satisfied⟩ := admits participant listed
    have member := List.mem_of_find?_eq_some there
    have named : plan.componentId = participant.1 := by simpa using List.find?_some there
    refine ⟨plan,member,named,contract,contracted,fun prerequisite asked => ⟨fun wanted about applicable => ?_,fun workload => ?_⟩⟩
    · have holds := (satisfied prerequisite asked).1 wanted about applicable
      have same := current holds.choose_spec.1
      have own : wanted = .dependenciesReady → ¬ StaleAt plans accepted.currentStatuses now plan.componentId := by
        rintro rfl
        obtain rfl : prerequisite = .dependencies := by cases prerequisite <;> first | rfl | cases about
        exact fresh_of_protocol readable member
          (satisfied _ (dependencies_with_protocol contract (List.mem_of_find?_eq_some contracted) asked))
      rw [← named]
      rw [same] at holds own
      exact supported_of_holds relabels apart known (compiled_locks compiled member) own holds
    · obtain ⟨status,there,is,_⟩ := (satisfied prerequisite asked).2 workload
      rw [current there] at there
      obtain ⟨before,inside,at_,rollout,_⟩ := recorded_of_current relabels there is
      exact ⟨before,inside,at_.trans named,rollout ▸ named ▸ compiled_locks compiled member⟩
  · refine (asks before).mpr ⟨openCell,identity,fun participant listed => (admits participant listed).sooner earlier ?_,target⟩
    intro status inside
    obtain none | taken := taken
    · rw [none] at inside
      exact absurd inside List.not_mem_nil
    · rw [taken] at inside
      obtain ⟨status,there,rfl⟩ := List.mem_map.mp inside
      rw [(relabels status).2.2.2]
      exact observed status there

/-! ### Two revisions of a cell -/

/-- A revision of a cell that locks these rollouts of its components. -/
def revisionOf (revision : String) (cell : CellSpec) (rollout : String → String) : ProofstormCellSpec :=
  ⟨"workspace","instance","key",revision,⟨lockApiVersion,"sha256:lock",cell.components.map fun component =>
    { componentId := component.id
      catalogId := component.implementation
      adapterVersion := "1"
      protocolActionAdapterVersion := none
      version := "1"
      configVersion := component.configVersion
      configSchemaDigest := "sha256:schema"
      features := []
      compatibleDependencies := []
      effectiveConfigDigest := "sha256:config"
      rolloutDigest := rollout component.id
      image := "image"
      sourceDigest := "sha256:source"
      source := none
      buildProvenance := none
      unverifiedNativeOverrides := [] }⟩,cell⟩

def ProofstormCellSpec.plans (spec : ProofstormCellSpec) : List ComponentPlanContract :=
  (compileComponentPlans spec.revisionDigest spec.cell spec.lock).toOption.getD []

/-- Checks of these rollouts, good until 100. -/
def checksOf (rollout : String → String) : Evidence where
  protocol := fun id => some ⟨rollout id,"sha256:runtime","worker",.reachable,⟨10,100,1⟩⟩
  eligibleTarget := fun _ => some "sha256:runtime"
  workerUp := fun _ => true

/-- The statuses of a revision that is running. -/
def observedOf (spec : ProofstormCellSpec) (rollout : String → String) : List ProbedStatus :=
  observeProbedStatuses spec.plans healthyReadings (checksOf rollout) [] [] 20

def runningAt (spec : ProofstormCellSpec) (rollout : String → String) : ProofstormCell :=
  ⟨"cell",false,spec,some ⟨.ready,spec.revisionDigest,observedOf spec rollout⟩⟩

/-- An action that was accepted under a revision. -/
def acceptedAt (revision : String) (action : CellAction) : ProofstormCellAction :=
  ⟨"action",some "tenant",some revision,⟨"cell","workspace","instance","key",action⟩⟩

/-- The one map there is. -/
def mapOf (digestJson : Json → String) (snapshot : ProofstormCellSpec) (_ name : String) :
    Except ControllerError (Option ProofstormCellSpec) :=
  if name = revisionMapName digestJson snapshot.instanceKey snapshot.revisionDigest then .ok (some snapshot)
  else .error (.kubernetes "404")

/-- An action of another revision gets the cell as its map has it. -/
theorem actionCell_atRevision (digestJson : Json → String) {revision other : String} (action : CellAction)
    (named : revision ≠ "") (differs : revision ≠ other) (cell before : CellSpec) (rollout rollout' : String → String) :
    actionCell digestJson (mapOf digestJson (revisionOf revision cell rollout)) (acceptedAt revision action)
        (runningAt (revisionOf other before rollout') rollout') =
      .ok ((runningAt (revisionOf other before rollout') rollout').atRevision revision (revisionOf revision cell rollout)) := by
  have shape : (acceptedAt revision action).actionRevision.filter (· ≠ "") = some revision := by
    simp only [acceptedAt,Option.filter_some,ne_eq,named,not_false_eq_true,decide_true,if_true]
  have found : (some (revisionOf revision cell rollout)).filter (fun snapshot =>
      snapshot.instanceKey = (runningAt (revisionOf other before rollout') rollout').spec.instanceKey ∧
        snapshot.revisionDigest = revision) = some (revisionOf revision cell rollout) :=
    Option.filter_some_pos (decide_eq_true ⟨rfl,rfl⟩)
  rw [actionCell,shape]
  dsimp only
  rw [if_neg (show ¬ revision = (runningAt (revisionOf other before rollout') rollout').spec.revisionDigest from differs)]
  simp only [bind_ok,require_ok,ensure_ok,pure_ok]
  refine ⟨"tenant",rfl,some (revisionOf revision cell rollout),if_pos rfl,⟨⟩,?_,?_⟩
  · rw [found]
    rfl
  · rw [found]

/-- Two nodes that were linked as peers at the first revision, and are no more. -/
def peered : ProofstormCellSpec := revisionOf "sha256:one" (lightningCell [peer "to-bob" "alice" "bob"]) (· ++ "-rollout")

def unpeered : ProofstormCellSpec := revisionOf "sha256:two" (lightningCell []) (· ++ "-rollout")

def authenticate : ProofstormCellAction := acceptedAt "sha256:one" (.authenticationConformance "alice" "chain")

/-- An action of the first revision is admitted on what was recorded under the second. -/
theorem snapshot_admission_sound_peers :
    SnapshotAdmission authenticate ((runningAt unpeered (· ++ "-rollout")).atRevision "sha256:one" peered)
      (observedOf unpeered (· ++ "-rollout")) (checksOf (· ++ "-rollout")) 60 :=
  snapshot_admission_sound documentDigest (mapOf documentDigest peered) (runningAt unpeered (· ++ "-rollout")) _ unpeered
    unpeered.plans healthyReadings (checksOf (· ++ "-rollout")) [] [] 20 60 authenticate (by decide +kernel) (by decide)
    (by rintro _ ⟨⟩; rfl) (actionCell_atRevision _ _ (by decide) (by decide) _ _ _ _) (by decide) (by decide +kernel)

def upgraded : ProofstormCellSpec := revisionOf "sha256:two" chainCell (· ++ "-upgraded")

def original : ProofstormCellSpec := revisionOf "sha256:one" chainCell (· ++ "-rollout")

def execute : ProofstormCellAction := acceptedAt "sha256:one" (.componentExecLive "alpha")

/-- A command needs no condition of the component that it runs in, whose workload may be
    another than the one its revision locks. -/
theorem execute_admitted :
    compileComponentPlans upgraded.revisionDigest upgraded.cell upgraded.lock = .ok upgraded.plans ∧
    actionCell documentDigest (mapOf documentDigest original) execute (runningAt upgraded (· ++ "-upgraded")) =
      .ok ((runningAt upgraded (· ++ "-upgraded")).atRevision "sha256:one" original) ∧
    evaluateActionAdmissionAt execute ((runningAt upgraded (· ++ "-upgraded")).atRevision "sha256:one" original) 60 = .ok () ∧
    ("alpha",.nativeExec) ∈ actionParticipants execute.spec.action ∧
    ∃ status ∈ observedOf upgraded (· ++ "-upgraded"), status.id = "alpha" ∧
      ¬ Locks original.lock "alpha" status.observedRolloutDigest := by
  refine ⟨by decide +kernel,actionCell_atRevision _ _ (by decide) (by decide) _ _ _ _,by decide +kernel,by decide,?_⟩
  decide +kernel

end Proofstorm.Readiness
