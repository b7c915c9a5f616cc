import Proofstorm.Lifecycle.Calls

/-!
What the versions of a workload look like in any run of passes over actions and
renders: each comes from the one before it by one of four transitions
(`Transition`), so that the sequence never goes back and the workload carries the
action with its sequence, unless a render has replaced it. An action succeeds
with a version that carries it and has converged.
-/
namespace Proofstorm.Lifecycle
open Proofstorm.Interleaving
open Relation (ReflTransGen)

section
variable {actions : Action → Prop}

/-- No action controls the workload. -/
structure Untouched (workload : Workload) : Prop where
  state : workload.state = none
  sequence : workload.sequence = none
  token : workload.restartToken = none
  runs : ∃ count, 0 < count ∧ workload.replicas = some count

/-- The workload carries what the action asks for. -/
structure Carries (action : Action) (workload : Workload) : Prop where
  sequence : workload.sequence = some (printU64 action.sequence)
  state : workload.state = some action.control.state
  stops : action.control = .stop → workload.replicas = some 0
  runs : action.control ≠ .stop → ∃ count, 0 < count ∧ workload.replicas = some count
  token : action.control = .restart → workload.restartToken = some action.token

/-- The workload was replaced since the action: it runs, and has no token to restart it. -/
structure Replaced (action : Action) (workload : Workload) : Prop where
  sequence : workload.sequence = some (printU64 action.sequence)
  state : workload.state = some "running"
  runs : ∃ count, 0 < count ∧ workload.replicas = some count
  token : workload.restartToken = none ∨ workload.restartToken = some ""

/-- The workload is as an action, or its replacement since, has left it. -/
def Governed (actions : Action → Prop) (workload : Workload) : Prop :=
  Untouched workload ∨ ∃ action, actions action ∧ (Carries action workload ∨ Replaced action workload)

/-- What actions wrote is as it was. The replicas of a workload that no action
    controls are those of the render. -/
structure Kept (old new : Workload) : Prop where
  state : new.state = old.state
  sequence : new.sequence = old.sequence
  token : new.restartToken = old.restartToken
  replicas : new.replicas = old.replicas ∨ (old.state = none ∧ ∃ count, 0 < count ∧ new.replicas = some count)

/-- The workload runs, and has no token to restart it. -/
structure Restored (old new : Workload) : Prop where
  state : new.state = old.state.map fun _ => "running"
  sequence : new.sequence = old.sequence
  token : new.restartToken = old.restartToken.map fun _ => ""
  runs : ∃ count, 0 < count ∧ new.replicas = some count

/-- How one version of the workload leads to the next. -/
inductive Transition (actions : Action → Prop) (old new : Workload) : Prop
  /-- An action that is not older takes control; a restart sets the token, nothing else does. -/
  | controlled (action : Action) (among : actions action) (later : old.lastSequence ≤ action.sequence)
      (carries : Carries action new) (token : action.control ≠ .restart → new.restartToken = old.restartToken)
  /-- A render of the same identity, or a change that the server makes. -/
  | kept (kept : Kept old new)
  /-- A render of another identity. -/
  | replaced (other : sameLifecycleIdentity old new = false) (restored : Restored old new)

/-! ### Writes -/

variable {action : Action} {workload : Workload}

theorem Carries.lastSequence (carries : Carries action workload) :
    workload.lastSequence = action.sequence := by
  simp [Workload.lastSequence,carries.sequence]

/-- The text of the sequence of a workload that an action controls. -/
theorem Governed.sequence (governed : Governed actions workload) {action : Action}
    (controlled : workload.state ≠ none) (same : workload.lastSequence = action.sequence) :
    workload.sequence = some (printU64 action.sequence) := by
  rcases governed with untouched | ⟨other,_,carried⟩
  · exact absurd untouched.state controlled
  · have sequence : workload.sequence = some (printU64 other.sequence) := carried.elim Carries.sequence Replaced.sequence
    have last : workload.lastSequence = other.sequence := by simp [Workload.lastSequence,sequence]
    rw [sequence,← same,last]

theorem patched_carries (workload : Workload) (action : Action) (plan : Plan) :
    Carries action (workload.patched action plan) where
  sequence := rfl
  state := rfl
  stops stop := by simp [Workload.patched,Control.replicas,stop]
  runs running := by
    refine ⟨plan.desiredReplicas.toNat,?_,?_⟩
    · have runs := plan.runs
      have positive : 0 < plan.desiredReplicas.toNat := runs
      omega
    · cases control : action.control with
      | stop => exact absurd control running
      | start => simp [Workload.patched,Control.replicas,control]
      | restart => simp [Workload.patched,Control.replicas,control]
  token restart := by simp [Workload.patched,restart]

theorem patched_token {plan : Plan} (other : action.control ≠ .restart) :
    (workload.patched action plan).restartToken = workload.restartToken :=
  if_neg other

section
variable (existing : Workload) (desired : Rendered)

theorem rendered_sequence : (existing.applied (preserveObserved existing desired.workload)).sequence = existing.sequence := by
  show (existing.sequence.or desired.workload.sequence).or existing.sequence = existing.sequence
  rw [desired.fresh.2.2.1]
  cases existing.sequence <;> rfl

/-- A render of the same identity keeps what actions wrote. -/
theorem rendered_kept (compatible : sameLifecycleIdentity existing desired.workload = true) :
    Kept existing (existing.applied (preserveObserved existing desired.workload)) := by
  obtain ⟨_,state,_,token⟩ := desired.fresh
  refine ⟨?_,rendered_sequence existing desired,?_,?_⟩
  · cases here : existing.state <;> simp [Workload.applied,preserveObserved,compatible,here,state]
  · cases here : existing.restartToken <;> simp [Workload.applied,preserveObserved,compatible,here,token]
  · cases here : existing.state with
    | some => exact .inl (by simp [Workload.applied,preserveObserved,compatible,here])
    | none => exact .inr ⟨rfl,by simpa [Workload.applied,preserveObserved,compatible,here] using desired.runs⟩

/-- A render of another identity replaces the workload. -/
theorem rendered_restored (other : sameLifecycleIdentity existing desired.workload = false) :
    Restored existing (existing.applied (preserveObserved existing desired.workload)) := by
  obtain ⟨_,state,_,token⟩ := desired.fresh
  refine ⟨?_,rendered_sequence existing desired,?_,?_⟩
  · cases here : existing.state <;> simp [Workload.applied,preserveObserved,other,here,state]
  · cases here : existing.restartToken <;> simp [Workload.applied,preserveObserved,other,here,token]
  · simpa [Workload.applied,preserveObserved,other] using desired.runs

theorem rendered_transition : Transition actions existing (existing.applied (preserveObserved existing desired.workload)) := by
  cases compatible : sameLifecycleIdentity existing desired.workload with
  | true => exact .kept (rendered_kept existing desired compatible)
  | false => exact .replaced compatible (rendered_restored existing desired compatible)
end

/-- The workload is as the action, or its replacement since, has left it. -/
def Carried (action : Action) (workload : Workload) : Prop := Carries action workload ∨ Replaced action workload

theorem Carried.lastSequence (carried : Carried action workload) :
    workload.lastSequence = action.sequence := by
  have sequence := carried.elim Carries.sequence Replaced.sequence
  simp [Workload.lastSequence,sequence]

variable {old new : Workload}

theorem Kept.untouched (kept : Kept old new) (untouched : Untouched old) : Untouched new := by
  obtain ⟨state,sequence,token,replicas⟩ := kept
  refine ⟨state.trans untouched.state,sequence.trans untouched.sequence,token.trans untouched.token,?_⟩
  rcases replicas with same | ⟨_,runs⟩
  · exact same ▸ untouched.runs
  · exact runs

theorem Kept.carried (kept : Kept old new) (carried : Carried action old) :
    Carried action new := by
  obtain ⟨state,sequence,token,replicas⟩ := kept
  rcases carried with carries | replaced
  · have same := replicas.resolve_right fun other => nomatch carries.state.symm.trans other.1
    exact .inl ⟨sequence.trans carries.sequence,state.trans carries.state,fun stop => same.trans (carries.stops stop),
      fun running => same ▸ carries.runs running,fun restart => token.trans (carries.token restart)⟩
  · have same := replicas.resolve_right fun other => nomatch replaced.state.symm.trans other.1
    exact .inr ⟨sequence.trans replaced.sequence,state.trans replaced.state,same ▸ replaced.runs,token ▸ replaced.token⟩

theorem Restored.untouched (restored : Restored old new) (untouched : Untouched old) :
    Untouched new := by
  obtain ⟨state,sequence,token,runs⟩ := restored
  refine ⟨?_,sequence.trans untouched.sequence,?_,runs⟩
  · rw [state,untouched.state]
    rfl
  · rw [token,untouched.token]
    rfl

theorem Restored.carried (restored : Restored old new)
    (carried : Carried action old) : Carried action new := by
  obtain ⟨state,sequence,token,runs⟩ := restored
  refine .inr ⟨sequence.trans (carried.elim Carries.sequence Replaced.sequence),?_,runs,?_⟩
  · rcases carried with carries | replaced
    · rw [state,carries.state]
      rfl
    · rw [state,replaced.state]
      rfl
  · rw [token]
    cases old.restartToken with
    | none => exact .inl rfl
    | some => exact .inr rfl

/-- A transition leaves the workload governed. -/
theorem Transition.governed (transition : Transition actions old new)
    (governed : Governed actions old) : Governed actions new := by
  cases transition with
  | controlled action among _ carries => exact .inr ⟨action,among,.inl carries⟩
  | kept kept =>
    rcases governed with untouched | ⟨action,among,carried⟩
    · exact .inl (kept.untouched untouched)
    · exact .inr ⟨action,among,kept.carried carried⟩
  | replaced _ restored =>
    rcases governed with untouched | ⟨action,among,carried⟩
    · exact .inl (restored.untouched untouched)
    · exact .inr ⟨action,among,restored.carried carried⟩

theorem Transition.later (transition : Transition actions old new) :
    old.lastSequence ≤ new.lastSequence := by
  cases transition with
  | controlled action _ later carries =>
    rw [carries.lastSequence]
    exact later
  | kept kept =>
    rw [Workload.lastSequence,Workload.lastSequence,kept.sequence]
    exact UInt64.le_refl _
  | replaced _ restored =>
    rw [Workload.lastSequence,Workload.lastSequence,restored.sequence]
    exact UInt64.le_refl _

/-! ### Versions -/

/-- Every version has its number, from one. -/
def Numbered : List Workload → Prop
  | [] => True
  | workload :: older => workload.resourceVersion = some (older.length + 1) ∧ Numbered older

theorem Numbered.of_mem {versions : List Workload} (numbered : Numbered versions) {workload : Workload}
    (member : workload ∈ versions) : ∃ number, workload.resourceVersion = some number ∧ number ≤ versions.length := by
  induction versions with
  | nil => exact nomatch member
  | cons first older ih =>
    rcases List.mem_cons.mp member with rfl | member
    · exact ⟨_,numbered.1,Nat.le_refl _⟩
    · obtain ⟨number,same,bound⟩ := ih numbered.2 member
      exact ⟨number,same,Nat.le_succ_of_le bound⟩

variable {older : List Workload} {a b cluster : Cluster}

/-- Whoever has the number of the last version has read that version. -/
theorem Numbered.last {first : Workload} (numbered : Numbered (first :: older))
    (member : workload ∈ first :: older) (same : first.resourceVersion = workload.resourceVersion) : workload = first := by
  rcases List.mem_cons.mp member with rfl | member
  · rfl
  · obtain ⟨number,found,bound⟩ := numbered.2.of_mem member
    rw [numbered.1,found] at same
    have alike := Option.some.inj same
    omega

/-- The action has succeeded with this version. -/
structure Completed (actions : Action → Prop) (action : Action) (observed : Workload) (versions : List Workload) : Prop where
  among : actions action
  version : observed ∈ versions
  sequence : observed.lastSequence = action.sequence
  state : observed.state = some action.control.state
  token : action.control = .restart → observed.restartToken = some action.token
  converged : ∃ plan : Plan, observed.matchesPlan plan = true ∧
    observed.converged (action.control = .stop) plan.desiredReplicas.toNat = true

/-- What holds of the cluster in every run. -/
structure Fenced (actions : Action → Prop) (cluster : Cluster) : Prop where
  numbered : Numbered cluster.versions
  chain : cluster.versions.IsChain fun new old => Transition actions old new
  governed : ∀ workload ∈ cluster.versions, Governed actions workload
  completed : ∀ action observed, (action,.succeeded observed) ∈ cluster.reports →
    Completed actions action observed cluster.versions

theorem Completed.stays {observed : Workload} {a b : List Workload}
    (completed : Completed actions action observed a) (grows : a <:+ b) : Completed actions action observed b :=
  { completed with version := grows.mem completed.version }

theorem Transition.numbered (transition : Transition actions old new) (version : Option Nat) :
    Transition actions old { new with resourceVersion := version } := by
  cases transition with
  | controlled action among later carries token =>
    exact .controlled action among later ⟨carries.sequence,carries.state,carries.stops,carries.runs,carries.token⟩ token
  | kept kept => exact .kept ⟨kept.state,kept.sequence,kept.token,kept.replicas⟩
  | replaced other restored => exact .replaced other ⟨restored.state,restored.sequence,restored.token,restored.runs⟩

/-- The server takes a version that comes of the last one by a transition. -/
theorem Fenced.push (fenced : Fenced actions cluster)
    (last : cluster.versions = old :: older) (transition : Transition actions old new) :
    Fenced actions (cluster.push new) := by
  have step := transition.numbered (some (cluster.versions.length + 1))
  refine ⟨⟨rfl,fenced.numbered⟩,?_,fun workload member => ?_,fun action observed reported => ?_⟩
  · have chain := fenced.chain
    simp only [Cluster.push]
    rw [last] at chain ⊢
    exact List.isChain_cons_cons.mpr ⟨last ▸ step,chain⟩
  · rcases List.mem_cons.mp member with rfl | earlier
    · exact step.governed (fenced.governed old (by simp [last]))
    · exact fenced.governed workload earlier
  · exact (fenced.completed action observed reported).stays (List.suffix_cons _ _)

/-! ### What the statements of a call find -/

/-- The versions of the workload only become more. -/
def Grows (a b : Cluster) : Prop := a.versions <:+ b.versions

theorem Grows.all (steps : ReflTransGen Grows a b) : Grows a b := by
  induction steps with
  | refl => exact List.suffix_rfl
  | tail _ step ih => exact ih.trans step

/-- What a statement of a call finds. -/
def Needs (actions : Action → Prop) : Statement → Cluster → Prop
  | .patch version action _, cluster => actions action ∧
      ∃ workload ∈ cluster.versions, workload.resourceVersion = version ∧ workload.lastSequence ≤ action.sequence
  | .apply document, cluster => ∃ desired : Rendered, document = desired.workload ∨
      ∃ existing ∈ cluster.versions, document = preserveObserved existing desired.workload
  | .report action outcome, cluster => ∀ observed, outcome = .succeeded observed →
      Completed actions action observed cluster.versions
  | _, _ => True

theorem failure_meets (action : Action) (code message : String) (cluster : Cluster) :
    (patchActionFailure action code message).run.Meets execute Grows (Needs actions) (fun _ _ => True) cluster :=
  fun _ _ => ⟨fun _ same => (nomatch same),fun _ _ _ _ _ => trivial,fun _ _ _ => trivial⟩

theorem complete_meets (action : Action) (among : actions action) (plan : Plan) (workload : Workload) (cluster : Cluster)
    (member : workload ∈ cluster.versions)
    (matching : workload.matchesPlan plan = true) (current : ¬ action.sequence < workload.lastSequence)
    (settled : ¬ outstanding action workload) :
    (complete action plan workload).run.Meets execute Grows (Needs actions) (fun _ _ => True) cluster := by
  simp only [outstanding,not_or,not_and,Decidable.not_not] at settled
  obtain ⟨reached,state,token⟩ := settled
  have same : workload.lastSequence = action.sequence :=
    UInt64.le_antisymm (UInt64.not_lt.mp current) (UInt64.not_lt.mp reached)
  unfold complete
  split
  · exact fun _ _ => trivial
  · rename_i converged
    refine .afterQuery (fun _ _ => trivial) fun seen pods steps _ => ?_
    split
    · exact fun _ _ => trivial
    · refine fun now more => ⟨?_,fun _ _ _ _ _ => trivial,fun _ _ _ => trivial⟩
      rintro observed ⟨⟩
      have grows := (Grows.all steps).trans (Grows.all more)
      exact ⟨among,grows.mem member,same,state,token,plan,matching,by simpa using converged⟩

theorem reconcileWorkload_meets (action : Action) (among : actions action) (plan : Plan) (cluster : Cluster) :
    (reconcileWorkload action plan).run.Meets execute Grows (Needs actions) (fun _ _ => True) cluster := by
  refine .afterQuery (fun _ _ => trivial) fun seen found steps here => ?_
  cases found with
  | none => exact fun _ _ => trivial
  | some workload =>
    have member : workload ∈ seen.versions := List.mem_of_head? (Except.ok.inj here)
    dsimp only
    split
    · exact failure_meets _ _ _ _
    · rename_i matching
      split
      · exact failure_meets _ _ _ _
      · rename_i current
        split
        · exact failure_meets _ _ _ _
        · split
          · refine .afterAttempt (show Call.Meets _ _ _ (fun _ _ => True) _ _ from ?_) fun outcome now _ => ?_
            · refine fun now more => ⟨⟨among,workload,?_,rfl,UInt64.not_lt.mp current⟩,fun _ _ _ _ _ => trivial,
                fun _ _ _ => trivial⟩
              exact (Grows.all more).mem member
            · split <;> exact fun _ _ => trivial
          · rename_i settled
            exact complete_meets action among plan workload seen member (by simpa using matching) current settled

theorem code_meets (request : Request actions) (cluster : Cluster) :
    (code request).Meets execute Grows (Needs actions) (fun _ _ => True) cluster := by
  cases request with
  | reconcile action among plan started =>
    show (reconcile action plan started).run.Meets execute Grows (Needs actions) (fun _ _ => True) cluster
    unfold reconcile
    split
    · exact failure_meets _ _ _ _
    · cases plan with
      | none => exact failure_meets _ _ _ _
      | some plan =>
        dsimp only
        split
        · exact failure_meets _ _ _ _
        · split
          · exact fun _ _ => ⟨fun _ same => (nomatch same),fun _ _ _ _ _ => trivial,fun _ _ _ => trivial⟩
          · exact reconcileWorkload_meets action among plan cluster
  | render desired =>
    refine .afterQuery (fun _ _ => trivial) fun seen found steps here => ?_
    refine fun now more => ⟨⟨desired,?_⟩,fun _ _ _ _ _ => trivial,fun _ _ _ => trivial⟩
    cases found with
    | none => exact .inl rfl
    | some existing =>
      exact .inr ⟨existing,(Grows.all more).mem (List.mem_of_head? (Except.ok.inj here)),rfl⟩
  | observe generation status =>
    exact fun _ _ => ⟨trivial,fun _ _ _ _ _ => trivial,fun _ _ _ => trivial⟩
  | schedule pods => exact fun _ _ => ⟨trivial,fun _ _ _ _ _ => trivial,fun _ _ _ => trivial⟩

/-- The first version. -/
theorem Fenced.create (fenced : Fenced actions cluster) (empty : cluster.versions = [])
    (desired : Rendered) : Fenced actions (cluster.push desired.workload) := by
  obtain ⟨_,state,sequence,token⟩ := desired.fresh
  refine ⟨⟨rfl,fenced.numbered⟩,?_,fun workload member => ?_,fun action observed reported => ?_⟩
  · simp [Cluster.push,empty]
  · rcases List.mem_cons.mp member with rfl | earlier
    · exact .inl ⟨state,sequence,token,desired.runs⟩
    · exact fenced.governed workload earlier
  · exact (fenced.completed action observed reported).stays (List.suffix_cons _ _)

/-- What a statement does where it finds what it needs. -/
theorem execute_fenced {statement : Statement} (fenced : Fenced actions a)
    (needs : Needs actions statement a) (executed : execute statement a = .ok ((),b)) : Fenced actions b ∧ Grows a b := by
  have numbered := fenced.numbered
  cases statement with
  | patch version action plan =>
    simp only [execute,bind_ok,require_ok,ensure_ok,pure_ok] at executed
    obtain ⟨last,found,_,same,done⟩ := executed
    cases done
    obtain ⟨older,versions⟩ : ∃ older, a.versions = last :: older := List.head?_eq_some_iff.mp found
    obtain ⟨among,read,member,number,later⟩ := needs
    rw [versions] at numbered member
    obtain rfl : read = last := numbered.last member (same.trans number.symm)
    have pushed := fenced.push versions
      (.controlled action among later (patched_carries read action plan) fun other => patched_token other)
    exact ⟨⟨pushed.numbered,pushed.chain,pushed.governed,pushed.completed⟩,List.suffix_cons _ _⟩
  | apply document =>
    simp only [execute,bind_ok,ensure_ok] at executed
    obtain ⟨_,same,done⟩ := executed
    obtain ⟨desired,needs⟩ := needs
    cases versions : a.versions with
    | nil =>
      rw [versions] at done same
      cases done
      rcases needs with rfl | ⟨existing,member,_⟩
      · exact ⟨fenced.create versions desired,List.suffix_cons _ _⟩
      · rw [versions] at member
        cases member
    | cons last older =>
      rw [versions] at done same numbered
      cases done
      have number : last.resourceVersion = document.resourceVersion := same
      rcases needs with rfl | ⟨existing,member,rfl⟩
      · rw [numbered.1,desired.fresh.1] at number
        cases number
      · rw [versions] at member
        obtain rfl : existing = last := numbered.last member number
        exact ⟨fenced.push versions (rendered_transition existing desired),List.suffix_cons _ _⟩
  | observe generation status =>
    simp only [execute,bind_ok,require_ok,pure_ok] at executed
    obtain ⟨last,found,done⟩ := executed
    cases done
    obtain ⟨older,versions⟩ : ∃ older, a.versions = last :: older := List.head?_eq_some_iff.mp found
    exact ⟨fenced.push versions (.kept ⟨rfl,rfl,rfl,.inl rfl⟩),List.suffix_cons _ _⟩
  | schedule pods =>
    cases executed
    exact ⟨⟨fenced.numbered,fenced.chain,fenced.governed,fenced.completed⟩,List.suffix_rfl⟩
  | report action outcome =>
    cases executed
    refine ⟨⟨fenced.numbered,fenced.chain,fenced.governed,fun other observed member => ?_⟩,List.suffix_rfl⟩
    rcases List.mem_cons.mp member with same | earlier
    · cases same
      exact needs observed rfl
    · exact fenced.completed other observed earlier

abbrev History (actions : Action → Prop) :=
  Config (Request actions) Cluster Statement Failure Statement.Answer (Except Failure Unit)

/-- What a render does to the last version. -/
structure Renders (old new : Workload) : Prop where
  same : sameLifecycleIdentity old new = true → Kept old new
  other : sameLifecycleIdentity old new = false → Restored old new

theorem apply_renders {document : Workload}
    (fenced : Fenced actions a) (needs : Needs actions (.apply document) a)
    (executed : execute (.apply document) a = .ok ((),b)) (last : a.versions = old :: older) :
    ∃ new, b.versions = new :: old :: older ∧ Renders old new := by
  have numbered := fenced.numbered
  simp only [execute,bind_ok,ensure_ok] at executed
  obtain ⟨_,same,done⟩ := executed
  obtain ⟨desired,needs⟩ := needs
  rw [last] at done same numbered
  cases done
  have number : old.resourceVersion = document.resourceVersion := same
  rcases needs with rfl | ⟨existing,member,rfl⟩
  · rw [numbered.1,desired.fresh.1] at number
    cases number
  · rw [last] at member
    obtain rfl : existing = old := numbered.last member number
    refine ⟨_,congrArg (List.cons _) last,fun compatible => ?_,fun other => ?_⟩
    · have kept := rendered_kept existing desired compatible
      exact ⟨kept.state,kept.sequence,kept.token,kept.replicas⟩
    · have restored := rendered_restored existing desired other
      exact ⟨restored.state,restored.sequence,restored.token,restored.runs⟩

theorem reachable_fenced {config : History actions} (reached : Reachable execute .unavailable code emptyCluster config) :
    Fenced actions config.state ∧ Throughout (fun _ event => ∀ document, event.did = some (.apply document) →
      ∀ old older, event.before.versions = old :: older →
        ∃ new, event.after.versions = new :: old :: older ∧ Renders old new) config.log := by
  have first : Fenced actions emptyCluster := ⟨trivial,.nil,by simp [emptyCluster],by simp [emptyCluster]⟩
  obtain ⟨fenced,log⟩ := reached.guarded (Fenced actions) Grows (fun _ => Needs actions) (fun _ _ _ => True) first
    (fun _ => List.suffix_rfl) (fun request state _ => code_meets request state)
    fun _ statement _ _ _ fenced needs executed => execute_fenced fenced needs executed
  refine ⟨fenced,(log.and reached.committed).mono fun _ event holds document did old older last => ?_⟩
  obtain ⟨⟨before,_,_,needs,_⟩,committed⟩ := holds
  rw [Committed,did] at committed
  obtain ⟨answer,executed⟩ := committed
  exact apply_renders before (needs _ did) executed last
end

end Proofstorm.Lifecycle
