import Proofstorm.Interleaving
import Proofstorm.Lifecycle.Workload

/-!
The calls that write the workload of one component: the passes of the controller
over lifecycle actions (`reconcile`) and over the cell (`render`). The server
keeps every version of the workload; a write carries the version it has read,
or none where it has read none, and is rejected where that is not the last one.
The server's own changes, of the status and of the generation, and the pods that
come and go are calls too.
-/
namespace Proofstorm.Lifecycle
open Proofstorm.Core
open Proofstorm.Interleaving

inductive Outcome
  | running
  /-- With the workload that was observed. -/
  | succeeded (observed : Workload)
  | failed (code message : String)

structure Cluster where
  /-- The versions of the workload, newest first. -/
  versions : List Workload
  /-- The pods with the label of the component. -/
  pods : List String
  /-- The statuses that actions were given, newest first. -/
  reports : List (Action × Outcome)
  /-- Not an object of the cluster: the actions whose patches the server took, newest first. -/
  controls : List Action

inductive Failure
  | conflict | notFound | unavailable
  deriving DecidableEq

inductive Statement
  | patch (version : Option Nat) (action : Action) (plan : Plan)
  | apply (document : Workload)
  | observe (generation : Option Int) (status : Option Status)
  | schedule (pods : List String)
  | report (action : Action) (outcome : Outcome)

@[reducible] def Statement.Answer (_ : Statement) : Type := Unit

def Cluster.push (cluster : Cluster) (workload : Workload) : Cluster :=
  { cluster with
    versions := { workload with resourceVersion := some (cluster.versions.length + 1) } :: cluster.versions }

def execute (statement : Statement) (cluster : Cluster) : Except Failure (statement.Answer × Cluster) :=
  match statement with
  | .patch version action plan => do
    let workload ← require cluster.versions.head? .notFound
    ensure (workload.resourceVersion = version) .conflict
    pure ((),{ cluster.push (workload.patched action plan) with controls := action :: cluster.controls })
  | .apply document => do
    ensure (cluster.versions.head?.bind Workload.resourceVersion = document.resourceVersion) .conflict
    match cluster.versions.head? with
    | none => pure ((),cluster.push document)
    | some workload => pure ((),cluster.push (workload.applied document))
  | .observe generation status => do
    let workload ← require cluster.versions.head? .notFound
    pure ((),cluster.push { workload with generation, status })
  | .schedule pods => .ok ((),{ cluster with pods })
  | .report action outcome => .ok ((),{ cluster with reports := (action,outcome) :: cluster.reports })

abbrev Program := Fallible Cluster Statement Failure Statement.Answer

/-! ### Lifecycle actions -/

/-- `patch_action_failure`. -/
def patchActionFailure (action : Action) (code message : String) : Program Unit :=
  submit (.report action (.failed code message))

/-- `patch_invalid_action`. -/
def patchInvalidAction (action : Action) (message : String) : Program Unit :=
  patchActionFailure action "invalid_action" message

/-- Whether the workload does not carry what the action asks for. -/
def outstanding (action : Action) (workload : Workload) : Prop :=
  workload.lastSequence < action.sequence ∨ workload.state ≠ some action.control.state ∨
    (action.control = .restart ∧ workload.restartToken ≠ some action.token)

instance (action : Action) (workload : Workload) : Decidable (outstanding action workload) :=
  inferInstanceAs (Decidable (_ ∨ _))

/-- The part of `reconcile_workload` that completes the action. -/
def complete (action : Action) (plan : Plan) (workload : Workload) : Program Unit := do
  if workload.converged (action.control = .stop) plan.desiredReplicas.toNat = false then pure ()
  else
    -- Replica counters may reach zero while a pod is still terminating.
    let pods ← query fun cluster => .ok (if action.control = .stop then cluster.pods else [])
    if pods ≠ [] then pure () else submit (.report action (.succeeded workload))

/-- `reconcile_workload`. -/
def reconcileWorkload (action : Action) (plan : Plan) : Program Unit := do
  match ← query fun cluster => .ok cluster.versions.head? with
  | none => pure ()
  | some workload =>
    if workload.matchesPlan plan = false then
      patchActionFailure action "stale_component_plan" "component workload does not match the accepted plan"
    else if action.sequence < workload.lastSequence then
      patchActionFailure action "lifecycle_action_superseded" "a newer lifecycle action controls this component"
    else if action.control = .restart ∧ (workload.replicas = some 0 ∨ workload.isStopped = true) then
      patchActionFailure action "component_not_running"
        "a deliberately stopped component must be started before it can be restarted"
    else if outstanding action workload then
      match ← attempt (submit (.patch workload.resourceVersion action plan)) with
      | .ok _ | .error .conflict => pure ()
      | .error error => throw error
    else complete action plan workload

/-- The capability that the kind of control asks for. -/
def Action.controls (action : Action) : Capability := if action.node then .nodeControl else .componentControl

/-- `reconcile`, where the plan is that of the component in the accepted cell. -/
def reconcile (action : Action) (plan : Option Plan) (started : Bool) : Program Unit :=
  if action.capability ≠ action.controls then
    patchInvalidAction action "component lifecycle capability mismatch"
  else
    match plan with
    | none => patchInvalidAction action "component is not in the accepted cell"
    | some plan =>
      if action.node = true ∧ plan.kind ≠ .bitcoin ∧ plan.kind ≠ .lightning then
        patchInvalidAction action "node controls support only Bitcoin and Lightning"
      else if started = false then submit (.report action .running)
      else reconcileWorkload action plan

/-! ### Renders of the cell -/

/-- `preserve`. -/
def preserve (existing : Option Workload) (desired : Rendered) : Workload :=
  match existing with
  | none => desired.workload
  | some existing => preserveObserved existing desired.workload

/-- The apply of what `preserve` returns. -/
def render (desired : Rendered) : Program Unit := do
  let existing ← query fun cluster => .ok cluster.versions.head?
  submit (.apply (preserve existing desired))

inductive Request (actions : Action → Prop)
  | reconcile (action : Action) (among : actions action) (plan : Option Plan) (started : Bool)
  | render (desired : Rendered)
  | observe (generation : Option Int) (status : Option Status)
  | schedule (pods : List String)

def code {actions : Action → Prop} :
    Request actions → Call Cluster Statement Failure Statement.Answer (Except Failure Unit)
  | .reconcile action _ plan started => (reconcile action plan started).run
  | .render desired => (render desired).run
  | .observe generation status => (submit (.observe generation status) : Program Unit).run
  | .schedule pods => (submit (.schedule pods) : Program Unit).run

def emptyCluster : Cluster := ⟨[],[],[],[]⟩
end Proofstorm.Lifecycle
