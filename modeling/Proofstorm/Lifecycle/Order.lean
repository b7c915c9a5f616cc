import Proofstorm.Lifecycle.Fence
import Proofstorm.Sequenced

/-!
Lifecycle actions on one component that are admitted one after another, each when
the one before it has ended. The store gives a submitted action the sequence after
its last one; the call of a task has the sequence of the task. So a call gives way
to an action that was numbered after its task (`latest_wins`).
-/
namespace Proofstorm.Lifecycle
open Proofstorm.Interleaving
open Relation (ReflTransGen)

def Outcome.terminal : Outcome → Bool
  | .running => false
  | _ => true

def Cluster.ended (cluster : Cluster) (action : Action) : Prop :=
  ∃ outcome, (action,outcome) ∈ cluster.reports ∧ outcome.terminal = true

/-- `lifecycle_action_superseded`. -/
def superseded : String := "lifecycle_action_superseded"

def Cluster.Superseded (cluster : Cluster) (action : Action) : Prop :=
  ∃ message, (action,.failed superseded message) ∈ cluster.reports

section
variable (cluster : Cluster) (action : Action)

instance : Decidable (cluster.ended action) :=
  decidable_of_iff (action ∈ (cluster.reports.filter fun report => report.2.terminal).map Prod.fst) (by
    simp [Cluster.ended])

/-- The code of a failure. -/
def Outcome.code : Outcome → Option String
  | .failed code _ => some code
  | _ => none

instance : Decidable (cluster.Superseded action) :=
  decidable_of_iff ((action,some superseded) ∈ cluster.reports.map fun report => (report.1,report.2.code)) (by
    rw [List.mem_map]
    constructor
    · rintro ⟨⟨other,outcome⟩,member,same⟩
      obtain ⟨rfl,code⟩ := Prod.mk.inj same
      cases outcome with
      | failed found message =>
        obtain rfl : found = superseded := Option.some.inj code
        exact ⟨message,member⟩
      | running => exact nomatch code
      | succeeded observed => exact nomatch code
    · rintro ⟨message,member⟩
      exact ⟨_,member,rfl⟩)
end

/-- What others do meanwhile. A render that writes has read the last version. -/
inductive Disturbs (a b : Cluster) : Prop
  | render (desired : Rendered) (executed : execute (.apply (preserve a.versions.head? desired)) a = .ok ((),b))
  | observe (generation : Option Int) (status : Option Status)
      (executed : execute (.observe generation status) a = .ok ((),b))
  | schedule (pods : List String) (executed : execute (.schedule pods) a = .ok ((),b))

/-- An action that was admitted, and whether a principal submitted it. -/
structure Admitted where
  action : Action
  submitted : Bool

/-- The runs in which actions are admitted one after another, with the last
    sequence of the store and the actions, newest first. -/
inductive Served : Nat → List Admitted → Cluster → Prop
  | empty : Served 0 [] emptyCluster
  | disturb {last : Nat} {admitted : List Admitted} {a b : Cluster} (served : Served last admitted a)
      (changed : Disturbs a b) : Served last admitted b
  /-- The store numbers another operation, such as the start of a task. -/
  | operation {last : Nat} {admitted : List Admitted} {cluster : Cluster} (served : Served last admitted cluster) :
    Served (last + 1) admitted cluster
  /-- `create_operation_inner` -/
  | submit {last : Nat} {admitted : List Admitted} {cluster : Cluster} (served : Served last admitted cluster)
      (ended : ∀ earlier ∈ admitted, cluster.ended earlier.action) (action : Action)
      (fresh : ∀ earlier ∈ admitted, earlier.action.operationId ≠ action.operationId)
      (sequence : action.sequence.toNat = last + 1) : Served (last + 1) (⟨action,true⟩ :: admitted) cluster
  /-- `child_action_at` -/
  | call {last : Nat} {admitted : List Admitted} {cluster : Cluster} (served : Served last admitted cluster)
      (ended : ∀ earlier ∈ admitted, cluster.ended earlier.action) (action : Action)
      (fresh : ∀ earlier ∈ admitted, earlier.action.operationId ≠ action.operationId)
      (task : action.sequence.toNat ≤ last) : Served last (⟨action,false⟩ :: admitted) cluster
  | pass {last : Nat} {newest : Admitted} {older : List Admitted} {a b : Cluster} {reply : Option (Except Failure Unit)}
      (served : Served last (newest :: older) a) (going : ¬ a.ended newest.action) (plan : Option Plan) (started : Bool)
      (carries : Sequenced.Carries execute .unavailable Disturbs (reconcile newest.action plan started).run a reply b) :
    Served last (newest :: older) b

/-! ### What others do -/

/-- What the controls of the actions leave alone: the last version at most follows. -/
structure Follows (a b : Cluster) : Prop where
  controls : b.controls = a.controls
  reports : b.reports = a.reports
  numbered : Numbered a.versions → Numbered b.versions
  versions : b.versions = a.versions ∨ (∃ new, a.versions = [] ∧ b.versions = [new] ∧ Untouched new) ∨
    ∃ old older new, a.versions = old :: older ∧ b.versions = new :: old :: older ∧ (Kept old new ∨ Restored old new)

variable {a b : Cluster} {action : Action} {actions : Action → Prop}

theorem Disturbs.follows (disturbs : Disturbs a b) : Follows a b := by
  cases disturbs with
  | render desired executed =>
    simp only [execute,bind_ok,ensure_ok] at executed
    obtain ⟨_,_,done⟩ := executed
    cases versions : a.versions with
    | nil =>
      rw [versions] at done
      cases done
      obtain ⟨_,state,sequence,token⟩ := desired.fresh
      refine ⟨rfl,rfl,fun numbered => ⟨rfl,numbered⟩,.inr (.inl ⟨_,versions,congrArg (List.cons _) versions,?_⟩)⟩
      exact ⟨state,sequence,token,desired.runs⟩
    | cons old older =>
      rw [versions] at done
      cases done
      refine ⟨rfl,rfl,fun numbered => ⟨rfl,numbered⟩,
        .inr (.inr ⟨old,older,_,versions,congrArg (List.cons _) versions,?_⟩)⟩
      cases compatible : sameLifecycleIdentity old desired.workload with
      | true =>
        have kept := rendered_kept old desired compatible
        exact .inl ⟨kept.state,kept.sequence,kept.token,kept.replicas⟩
      | false =>
        have restored := rendered_restored old desired compatible
        exact .inr ⟨restored.state,restored.sequence,restored.token,restored.runs⟩
  | observe generation status executed =>
    simp only [execute,bind_ok,require_ok,pure_ok] at executed
    obtain ⟨old,found,done⟩ := executed
    cases done
    obtain ⟨older,versions⟩ : ∃ older, a.versions = old :: older := List.head?_eq_some_iff.mp found
    exact ⟨rfl,rfl,fun numbered => ⟨rfl,numbered⟩,
      .inr (.inr ⟨old,older,_,versions,congrArg (List.cons _) versions,.inl ⟨rfl,rfl,rfl,.inl rfl⟩⟩)⟩
  | schedule pods executed =>
    cases executed
    exact ⟨rfl,rfl,fun numbered => numbered,.inl rfl⟩

/-- Whether the last version is as the action has left it. -/
def Cluster.InForce (cluster : Cluster) (action : Action) : Prop :=
  ∀ workload older, cluster.versions = workload :: older → Carried action workload

theorem Follows.inForce (follows : Follows a b) (there : a.versions ≠ [])
    (inForce : a.InForce action) : b.InForce action := by
  intro workload older last
  rcases follows.versions with same | ⟨_,none,_⟩ | ⟨old,rest,new,before,after,step⟩
  · exact inForce workload older (same ▸ last)
  · exact absurd none there
  · obtain ⟨rfl,_⟩ := List.cons.inj (last.symm.trans after)
    exact step.elim (fun kept => kept.carried (inForce old rest before))
      fun restored => restored.carried (inForce old rest before)

theorem Follows.governed (follows : Follows a b)
    (governed : ∀ workload ∈ a.versions, Governed actions workload) :
    ∀ workload ∈ b.versions, Governed actions workload := by
  intro workload member
  rcases follows.versions with same | ⟨new,_,created,untouched⟩ | ⟨old,rest,new,before,after,step⟩
  · exact governed workload (same ▸ member)
  · rw [created,List.mem_singleton] at member
    subst member
    exact .inl untouched
  · rw [after] at member
    rcases List.mem_cons.mp member with rfl | earlier
    · have here := governed old (by simp [before])
      exact step.elim (fun kept => (Transition.kept kept).governed here)
        fun restored => here.elim (fun untouched => .inl (restored.untouched untouched))
          fun ⟨action,among,carried⟩ => .inr ⟨action,among,restored.carried carried⟩
    · exact governed workload (before ▸ earlier)

theorem Follows.grows (follows : Follows a b) : Grows a b := by
  rcases follows.versions with same | ⟨_,none,_⟩ | ⟨old,rest,new,before,after,_⟩
  · show a.versions <:+ b.versions
    exact same ▸ List.suffix_rfl
  · show a.versions <:+ b.versions
    exact none ▸ List.nil_suffix
  · rw [Grows,before,after]
    exact List.suffix_cons _ _

/-! ### What a pass finds -/

/-- What a statement of a pass over the action finds. -/
def Serves (own : Action) : Statement → Cluster → Prop
  | .patch version action _, cluster => action = own ∧
      ∃ workload ∈ cluster.versions, workload.resourceVersion = version ∧ workload.lastSequence ≤ own.sequence
  | .report action (.failed code _), cluster => action = own ∧
      (code = superseded → ∃ workload ∈ cluster.versions, own.sequence < workload.lastSequence)
  | .report action (.succeeded observed), cluster => action = own ∧ observed ∈ cluster.versions ∧ cluster.InForce own
  | .report action .running, _ => action = own
  | _, _ => False

theorem grows_all (steps : ReflTransGen Disturbs a b) : Grows a b := by
  induction steps with
  | refl => exact List.suffix_rfl
  | tail _ step ih => exact ih.trans step.follows.grows

theorem inForce_all (steps : ReflTransGen Disturbs a b) (there : a.versions ≠ [])
    (inForce : a.InForce action) : b.InForce action := by
  induction steps with
  | refl => exact inForce
  | tail before step ih =>
    refine step.follows.inForce (fun none => there ?_) ih
    exact List.suffix_nil.mp (none ▸ grows_all before)

theorem state_stop {control : Control} (state : control.state = "stopped") : control = .stop := by
  cases control with
  | stop => rfl
  | start => exact absurd state (by decide)
  | restart => exact absurd state (by decide)

/-- A workload that needs no write is as the action would leave it. -/
theorem settled_carries {own : Action} {workload : Workload}
    (governed : Governed actions workload) (same : workload.lastSequence = own.sequence)
    (state : workload.state = some own.control.state)
    (token : own.control = .restart → workload.restartToken = some own.token) : Carries own workload := by
  have sequence := governed.sequence (by rw [state]; exact Option.some_ne_none _) same
  rcases governed with untouched | ⟨other,_,carries | replaced⟩
  · exact nomatch untouched.state.symm.trans state
  · have alike : other.control.state = own.control.state := Option.some.inj (carries.state.symm.trans state)
    refine ⟨sequence,state,fun stop => carries.stops (state_stop ?_),fun running => carries.runs fun stop => running (state_stop ?_),token⟩
    · rw [alike,stop]
      rfl
    · rw [← alike,stop]
      rfl
  · have alike : "running" = own.control.state := Option.some.inj (replaced.state.symm.trans state)
    refine ⟨sequence,state,fun stop => ?_,fun _ => replaced.runs,token⟩
    rw [stop] at alike
    exact absurd alike (by decide)

section
variable {own : Action} {start : Cluster}

theorem failure_serves (code message : String) (cluster : Cluster)
    (found : code = superseded → ∃ workload ∈ cluster.versions, own.sequence < workload.lastSequence) :
    (patchActionFailure own code message).run.Meets execute Disturbs (Serves own) (fun _ _ => True) cluster := by
  refine fun now steps => ⟨⟨rfl,fun same => ?_⟩,fun _ _ _ _ _ => trivial,fun _ _ _ => trivial⟩
  obtain ⟨workload,member,later⟩ := found same
  exact ⟨workload,(grows_all steps).mem member,later⟩

theorem complete_serves (plan : Plan) (workload : Workload) (older : List Workload) (cluster : Cluster)
    (last : cluster.versions = workload :: older) {actions : Action → Prop} (governed : Governed actions workload)
    (current : ¬ own.sequence < workload.lastSequence) (settled : ¬ outstanding own workload) :
    (complete own plan workload).run.Meets execute Disturbs (Serves own) (fun _ _ => True) cluster := by
  simp only [outstanding,not_or,not_and,Decidable.not_not] at settled
  obtain ⟨reached,state,token⟩ := settled
  have same : workload.lastSequence = own.sequence :=
    UInt64.le_antisymm (UInt64.not_lt.mp current) (UInt64.not_lt.mp reached)
  have carries := settled_carries governed same state token
  unfold complete
  split
  · exact fun _ _ => trivial
  · refine .afterQuery (fun _ _ => trivial) fun seen pods steps _ => ?_
    split
    · exact fun _ _ => trivial
    · refine fun now more => ⟨⟨rfl,(grows_all (steps.trans more)).mem (by simp [last]),?_⟩,
        fun _ _ _ _ _ => trivial,fun _ _ _ => trivial⟩
      refine inForce_all (steps.trans more) (by simp [last]) fun other rest here => ?_
      obtain ⟨rfl,_⟩ := List.cons.inj (last.symm.trans here)
      exact .inl carries

theorem reconcileWorkload_serves (plan : Plan) (cluster : Cluster) {actions : Action → Prop}
    (governed : ∀ workload ∈ cluster.versions, Governed actions workload) :
    (reconcileWorkload own plan).run.Meets execute Disturbs (Serves own) (fun _ _ => True) cluster := by
  refine .afterQuery (fun _ _ => trivial) fun seen found steps here => ?_
  have governed : ∀ workload ∈ seen.versions, Governed actions workload := by
    clear here
    induction steps with
    | refl => exact governed
    | tail _ step ih => exact step.follows.governed ih
  cases found with
  | none => exact fun _ _ => trivial
  | some workload =>
    obtain ⟨older,last⟩ : ∃ older, seen.versions = workload :: older := List.head?_eq_some_iff.mp (Except.ok.inj here)
    have member : workload ∈ seen.versions := by simp [last]
    dsimp only
    split
    · exact failure_serves _ _ _ fun same => absurd same (by decide)
    · split
      · rename_i later
        exact failure_serves _ _ _ fun _ => ⟨workload,member,later⟩
      · rename_i current
        split
        · exact failure_serves _ _ _ fun same => absurd same (by decide)
        · split
          · refine .afterAttempt (show Call.Meets _ _ _ (fun _ _ => True) _ _ from ?_) fun outcome now _ => ?_
            · exact fun now more => ⟨⟨rfl,workload,(grows_all more).mem member,rfl,UInt64.not_lt.mp current⟩,
                fun _ _ _ _ _ => trivial,fun _ _ _ => trivial⟩
            · split <;> exact fun _ _ => trivial
          · rename_i settled
            exact complete_serves plan workload older seen last (governed workload member) current settled

theorem reconcile_serves (plan : Option Plan) (started : Bool) (cluster : Cluster) {actions : Action → Prop}
    (governed : ∀ workload ∈ cluster.versions, Governed actions workload) :
    (reconcile own plan started).run.Meets execute Disturbs (Serves own) (fun _ _ => True) cluster := by
  unfold reconcile
  split
  · exact failure_serves _ _ _ fun same => absurd same (by decide)
  · cases plan with
    | none => exact failure_serves _ _ _ fun same => absurd same (by decide)
    | some plan =>
      dsimp only
      split
      · exact failure_serves _ _ _ fun same => absurd same (by decide)
      · split
        · exact fun _ _ => ⟨rfl,fun _ _ _ _ _ => trivial,fun _ _ _ => trivial⟩
        · exact reconcileWorkload_serves plan cluster governed
end

end Proofstorm.Lifecycle
