import Proofstorm.Readiness.Admission
import Proofstorm.Readiness.Lapsed
import Proofstorm.Readiness.Renewed

/-!
What the admission of an action says about its components. However the statuses came to be
taken over from another revision, each condition that was asked for was true of the workload
that the action's revision locks, and no check that it rests on had expired.
-/
namespace Proofstorm.Readiness
open Proofstorm.Core Validation Publication Plans

/-! ### Statuses read through expiry -/

section
variable {plans : List ComponentPlanContract} {plan : ComponentPlanContract} {start statuses : List ProbedStatus}
  {now : Int} {wanted : ComponentConditionType} {operation : OperationClass}

theorem currentComponentStatus_eq (apart : (statuses.map fun status => status.id).Nodup) :
    currentComponentStatus plan statuses = (statusOf statuses plan.componentId).filter (·.isOf plan) := by
  ext status
  rw [Option.filter_eq_some_iff]
  constructor
  · intro found
    have is : status.isOf plan = true := by
      have same := List.find?_some found
      exact same
    have named := (isOf_iff.mp is).1
    exact ⟨named ▸ statusOf_of_mem apart (List.mem_of_find?_eq_some found),is⟩
  · rintro ⟨found,is⟩
    have member := statusOf_mem found
    have present : (statuses.find? (·.isOf plan)).isSome = true := List.find?_isSome.mpr ⟨status,member,is⟩
    obtain ⟨other,known⟩ := Option.isSome_iff_exists.mp present
    have same : other.isOf plan = true := by
      have same := List.find?_some known
      exact same
    have named : other.id = status.id := (isOf_iff.mp same).1.trans (isOf_iff.mp is).1.symm
    rw [currentComponentStatus,known,List.inj_on_of_nodup_map apart (List.mem_of_find?_eq_some known) member named]

/-- What the current status of a component says about one condition. -/
theorem currentCondition_verdict (apart : (statuses.map fun status => status.id).Nodup) :
    (currentCondition plan statuses wanted).map (fun condition => (condition.state,condition.reason)) =
      ((statusOf statuses plan.componentId).filter (·.isOf plan)).bind fun status => verdictOf status.conditions wanted := by
  rw [currentCondition,currentComponentStatus_eq apart,Option.map_bind]
  rfl

/-- A condition holds of the current status of a component, and none of the checks it rests on has expired. -/
def Holds (plans : List ComponentPlanContract) (start : List ProbedStatus) (now : Int) (plan : ComponentPlanContract)
    (wanted : ComponentConditionType) : Prop :=
  ∃ status, statusOf start plan.componentId = some status ∧ status.isOf plan = true ∧
    stateOf status.conditions wanted = .true ∧ (wanted = .protocolReady → ¬ StaleAt plans start now plan.componentId) ∧
    (wanted = .dependenciesReady → ¬ LeadsToStale plans start now plan.componentId)

/-- A component has a workload that was observed. -/
def Identified (start : List ProbedStatus) (plan : ComponentPlanContract) : Prop :=
  ∃ status, statusOf start plan.componentId = some status ∧ status.isOf plan = true ∧
    ∃ state reason, verdictOf status.conditions .workloadReady = some (state,reason) ∧ reason ≠ .notObserved ∧
      reason ≠ .staleRevision

theorem isOf_lapse {expired lowered : Prop} {before after : ProbedStatus} (lapse : Lapse expired lowered before after) :
    after.isOf plan = before.isOf plan := by
  obtain ⟨named,revision,rollout,_⟩ := lapse.status
  simp only [ComponentStatus.isOf,named,revision,rollout]

theorem stateOf_of_verdict {before after : List ComponentCondition} (same : verdictOf after wanted = verdictOf before wanted) :
    stateOf after wanted = stateOf before wanted := by
  rw [stateOf_verdict,stateOf_verdict,same]

theorem any_state {condition : Option ComponentCondition} : condition.any (fun condition => condition.state == .true) = true ↔
    ∃ state reason, condition.map (fun condition => (condition.state,condition.reason)) = some (state,reason) ∧ state = .true := by
  cases condition with
  | none => simp
  | some condition => simp

theorem verdictOf_true {conditions : List ComponentCondition} : stateOf conditions wanted = .true ↔
    ∃ state reason, verdictOf conditions wanted = some (state,reason) ∧ state = .true := by
  rw [stateOf_verdict]
  cases known : verdictOf conditions wanted with
  | none => simp
  | some verdict => obtain ⟨state,reason⟩ := verdict; simp

/-- A condition asked for holds after expiry exactly when it held and nothing that it rests on has expired. -/
theorem holds_iff (readable : Readable plans start) (unready : wanted ≠ .componentReady) :
    (currentCondition plan (expireProtocolStatus plans start now) wanted).any (fun condition => condition.state == .true) = true ↔
      Holds plans start now plan wanted := by
  obtain ⟨ids,each⟩ := expired_lapse readable now
  have apart : ((expireProtocolStatus plans start now).map fun status => status.id).Nodup := ids ▸ readable.apart
  rw [any_state,currentCondition_verdict apart,Holds]
  cases began : statusOf start plan.componentId with
  | none =>
    rw [statusOf_none ids began]
    simp
  | some before =>
    obtain ⟨after,there,lapse,lowers⟩ := each _ before began
    rw [there]
    cases is : before.isOf plan with
    | false =>
      rw [Option.filter_some_neg (by rw [isOf_lapse lapse,is])]
      simp [is]
    | true =>
      rw [Option.filter_some_pos (by rw [isOf_lapse lapse,is]),Option.bind_some,← verdictOf_true]
      simp only [Option.some.injEq,exists_eq_left',is,true_and]
      by_cases protocol : wanted = .protocolReady
      · subst protocol
        by_cases expired : StaleAt plans start now plan.componentId
        · simp [expired,lapse.expires expired]
        · simp [expired,stateOf_of_verdict (lapse.kept expired)]
      · by_cases dependencies : wanted = .dependenciesReady
        · subst dependencies
          by_cases leads : LeadsToStale plans start now plan.componentId
          · simp [leads,lowers leads]
          · simp [leads,stateOf_of_verdict (lapse.held leads)]
        · simp [protocol,dependencies,stateOf_of_verdict (lapse.others wanted unready protocol dependencies)]

theorem identified_iff (readable : Readable plans start) :
    (currentCondition plan (expireProtocolStatus plans start now) .workloadReady).any
      (fun condition => condition.reason != .notObserved && condition.reason != .staleRevision) = true ↔ Identified start plan := by
  obtain ⟨ids,each⟩ := expired_lapse readable now
  have apart : ((expireProtocolStatus plans start now).map fun status => status.id).Nodup := ids ▸ readable.apart
  have read : ∀ condition : Option ComponentCondition,
      condition.any (fun condition => condition.reason != .notObserved && condition.reason != .staleRevision) = true ↔
      ∃ state reason, condition.map (fun condition => (condition.state,condition.reason)) = some (state,reason) ∧
        reason ≠ .notObserved ∧ reason ≠ .staleRevision := by
    intro condition
    cases condition with
    | none => simp
    | some condition => simp
  rw [read,currentCondition_verdict apart,Identified]
  cases began : statusOf start plan.componentId with
  | none =>
    rw [statusOf_none ids began]
    simp
  | some before =>
    obtain ⟨after,there,lapse,_⟩ := each _ before began
    rw [there]
    have same := lapse.others .workloadReady (fun contrary => by cases contrary) (fun contrary => by cases contrary)
      (fun contrary => by cases contrary)
    cases is : before.isOf plan with
    | false =>
      rw [Option.filter_some_neg (by rw [isOf_lapse lapse,is])]
      simp [is]
    | true =>
      rw [Option.filter_some_pos (by rw [isOf_lapse lapse,is]),Option.bind_some,same]
      simp [is]

/-! ### What admission asks -/

/-- What a prerequisite comes down to. -/
def Satisfied (plans : List ComponentPlanContract) (start : List ProbedStatus) (now : Int) (plan : ComponentPlanContract)
    (prerequisite : ReadinessPrerequisite) : Prop :=
  (∀ wanted, prerequisite.condition = some wanted → wanted ∈ plan.applicableConditions → Holds plans start now plan wanted) ∧
    (prerequisite = .workloadIdentity → Identified start plan)

theorem condition_unready {prerequisite : ReadinessPrerequisite} (about : prerequisite.condition = some wanted) :
    wanted ≠ .componentReady := by
  cases prerequisite <;> cases about <;> exact fun contrary => by cases contrary

theorem evaluatePrerequisite_ok (readable : Readable plans start) {prerequisite : ReadinessPrerequisite} {u : PUnit} :
    evaluatePrerequisite plan (expireProtocolStatus plans start now) operation prerequisite = .ok u ↔
      Satisfied plans start now plan prerequisite := by
  rw [evaluatePrerequisite,Satisfied]
  cases about : prerequisite.condition with
  | none =>
    dsimp only
    by_cases workload : prerequisite = .workloadIdentity
    · rw [if_pos workload,evaluateWorkloadIdentity,ensure_ok,identified_iff readable]
      simp [workload]
    · rw [if_neg workload]
      simp [workload]
  | some wanted =>
    have other : prerequisite ≠ .workloadIdentity := by
      rintro rfl
      cases about
    dsimp only
    rw [ensure_ok,Bool.or_eq_true,holds_iff readable (condition_unready about),Bool.not_eq_true',← Bool.not_eq_true,
      List.contains_iff_mem,← imp_iff_not_or]
    simp [other]

theorem forM_ok {α ε : Type} {items : List α} {check : α → Except ε PUnit} {u : PUnit} :
    items.forM check = .ok u ↔ ∀ item ∈ items, check item = .ok () := by
  induction items with
  | nil => simp [List.forM_eq_forM]
  | cons first rest ih =>
    rw [List.forM_eq_forM] at ih ⊢
    rw [List.forM_cons,bind_ok,List.forall_mem_cons]
    constructor
    · rintro ⟨⟨⟩,own,others⟩
      exact ⟨own,ih.mp others⟩
    · rintro ⟨own,others⟩
      exact ⟨⟨⟩,own,ih.mpr others⟩

/-- What one component of an action is asked. -/
def Admits (plans : List ComponentPlanContract) (start : List ProbedStatus) (now : Int)
    (participant : String × OperationClass) : Prop :=
  ∃ plan, plans.find? (·.componentId == participant.1) = some plan ∧
    ∃ contract, (operationAdmissionOf plan).find? (·.operation == participant.2) = some contract ∧
      ∀ prerequisite ∈ contract.prerequisites, Satisfied plans start now plan prerequisite

theorem evaluateParticipant_ok (readable : Readable plans start) {participant : String × OperationClass} {u : PUnit} :
    evaluateParticipant plans (expireProtocolStatus plans start now) participant = .ok u ↔
      Admits plans start now participant := by
  simp only [evaluateParticipant,requireAdmissionPlan,bind_ok,require_ok,forM_ok,evaluatePrerequisite_ok readable,Admits]

/-- Of the component that is reached, nothing is asked but that it is there. -/
theorem evaluateTarget_eq (statuses others : List ProbedStatus) (action : CellAction) :
    evaluateTarget plans statuses action = evaluateTarget plans others action := rfl

end

/-! ### Earlier admission -/

section
variable {plans : List ComponentPlanContract} {plan : ComponentPlanContract} {start : List ProbedStatus}
  {before now : Int} {id : String}

section
variable (earlier : before ≤ now)
  (observed : ∀ status ∈ start, ∀ timing ∈ status.protocolObservation, timing.observedAtUnix ≤ before)
include earlier observed

/-- What is stale has not become fresh since: no check was made after the earlier time. -/
theorem StaleAt.later (stale : StaleAt plans start before id) : StaleAt plans start now id := by
  obtain ⟨plan,member,named,status,began,probed,running,old⟩ := stale
  refine ⟨plan,member,named,status,began,probed,running,?_⟩
  rw [Option.any_eq_false_iff_get] at old ⊢
  intro some_
  have seen := observed status (statusOf_mem began) _ (Option.get_mem some_)
  have gone := old some_
  simp only [ProtocolObservation.isFresh,Bool.and_eq_false_iff,decide_eq_false_iff_not,not_le,not_lt] at gone ⊢
  omega

theorem Satisfied.sooner {prerequisite : ReadinessPrerequisite}
    (satisfied : Satisfied plans start now plan prerequisite) :
    Satisfied plans start before plan prerequisite := by
  refine ⟨fun wanted about applicable => ?_,satisfied.2⟩
  obtain ⟨status,began,is,holds,fresh,rests⟩ := satisfied.1 wanted about applicable
  refine ⟨status,began,is,holds,fun protocol stale => fresh protocol (stale.later earlier observed),
    fun dependencies leads => rests dependencies ?_⟩
  obtain ⟨other,path,stale⟩ := leads
  exact ⟨other,path,stale.later earlier observed⟩

/-- A component that is admitted was so at every earlier time, if it had been checked by then. -/
theorem Admits.sooner {participant : String × OperationClass} (admits : Admits plans start now participant) :
    Admits plans start before participant := by
  obtain ⟨plan,found,contract,listed,satisfied⟩ := admits
  exact ⟨plan,found,contract,listed,fun prerequisite member => (satisfied prerequisite member).sooner earlier observed⟩
end

/-- The plans of a cell, where its statuses can be read against them. -/
theorem evaluateActionAdmissionAt_ok (action : ProofstormCellAction) (now : Int) {cell : ProofstormCell}
    (compiled : compileComponentPlans cell.spec.revisionDigest cell.spec.cell cell.spec.lock = .ok plans)
    (readable : Readable plans cell.currentStatuses) : evaluateActionAdmissionAt action cell now = .ok () ↔
      requireOpenCell cell = .ok () ∧ validateActionIdentity action cell = .ok () ∧
        (∀ participant ∈ actionParticipants action.spec.action, Admits plans cell.currentStatuses now participant) ∧
        evaluateTarget plans [] action.spec.action = .ok () := by
  simp only [evaluateActionAdmissionAt,bind_ok,admissionPlans_ok,compiled,Except.ok.injEq,exists_eq_left',forM_ok,
    evaluateParticipant_ok readable,evaluateTarget_eq (expireProtocolStatus plans cell.currentStatuses now) []]
  constructor
  · rintro ⟨⟨⟩,openCell,⟨⟩,identity,⟨⟩,admits,target⟩
    exact ⟨openCell,identity,admits,target⟩
  · rintro ⟨openCell,identity,admits,target⟩
    exact ⟨⟨⟩,openCell,⟨⟩,identity,⟨⟩,admits,target⟩

theorem compiled_of_admitted {action : ProofstormCellAction} {cell : ProofstormCell}
    (admitted : evaluateActionAdmissionAt action cell now = .ok ()) :
    ∃ plans, compileComponentPlans cell.spec.revisionDigest cell.spec.cell cell.spec.lock = .ok plans := by
  simp only [evaluateActionAdmissionAt,bind_ok,admissionPlans_ok] at admitted
  obtain ⟨_,_,_,_,plans,compiled,_⟩ := admitted
  exact ⟨plans,compiled⟩

end

end Proofstorm.Readiness
