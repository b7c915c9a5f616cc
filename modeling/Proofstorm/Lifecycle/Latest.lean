import Proofstorm.Lifecycle.Order

/-!
Which action the component ends with, when actions are admitted one after another:
what holds of every such run (`Ruled`), move by move, and what it comes to
(`latest_wins`).
-/
namespace Proofstorm.Lifecycle
open Proofstorm.Interleaving

/-- The action took control of the component, or found it as it would leave it. -/
def Cluster.Took (cluster : Cluster) (action : Action) : Prop :=
  action ∈ cluster.controls ∨ ∃ observed, (action,.succeeded observed) ∈ cluster.reports

/-- What holds of the actions that were admitted and of the cluster. -/
structure Ruled (last : Nat) (admitted : List Admitted) (cluster : Cluster) : Prop where
  numbered : Numbered cluster.versions
  governed : ∀ workload ∈ cluster.versions, Governed (· ∈ cluster.controls) workload
  /-- No action that took control is ahead of the workload. -/
  reached : ∀ action ∈ cluster.controls, ∃ workload older, cluster.versions = workload :: older ∧
    action.sequence ≤ workload.lastSequence
  controls : ∀ action ∈ cluster.controls, ∃ entry ∈ admitted, entry.action = action
  reports : ∀ action outcome, (action,outcome) ∈ cluster.reports → ∃ entry ∈ admitted, entry.action = action
  observed : ∀ action observed, (action,.succeeded observed) ∈ cluster.reports → observed ∈ cluster.versions
  bound : ∀ entry ∈ admitted, entry.action.sequence.toNat ≤ last
  distinct : (admitted.map Admitted.action).Nodup
  submitted : admitted.Pairwise fun newer earlier =>
    newer.submitted = true → earlier.action.sequence < newer.action.sequence
  desired : ∀ newer entry older, admitted = newer ++ entry :: older → (∀ later ∈ newer, later.action ∉ cluster.controls) →
    cluster.Took entry.action → cluster.InForce entry.action
  ranked : ∀ newer entry older, admitted = newer ++ entry :: older → cluster.Took entry.action →
    ∀ earlier ∈ older, earlier.action ∈ cluster.controls → earlier.action.sequence ≤ entry.action.sequence
  outranked : ∀ newer entry older, admitted = newer ++ entry :: older → cluster.Superseded entry.action →
    ∃ earlier ∈ older, earlier.action ∈ cluster.controls ∧ entry.action.sequence < earlier.action.sequence

theorem Ruled.empty : Ruled 0 [] emptyCluster where
  numbered := trivial
  governed := by simp [emptyCluster]
  reached := by simp [emptyCluster]
  controls := by simp [emptyCluster]
  reports := by simp [emptyCluster]
  observed := by simp [emptyCluster]
  bound := by simp
  distinct := .nil
  submitted := .nil
  desired := by simp
  ranked := by simp
  outranked := by simp

variable {last : Nat} {cluster a b : Cluster}

theorem Ruled.operation {admitted : List Admitted} (ruled : Ruled last admitted cluster) :
    Ruled (last + 1) admitted cluster :=
  { ruled with bound := fun entry member => Nat.le_succ_of_le (ruled.bound entry member) }

/-- The versions of a cluster are there for good. -/
theorem Follows.reached (follows : Follows a b) {sequence : UInt64}
    (reached : ∃ workload older, a.versions = workload :: older ∧ sequence ≤ workload.lastSequence) :
    ∃ workload older, b.versions = workload :: older ∧ sequence ≤ workload.lastSequence := by
  obtain ⟨workload,older,last,bound⟩ := reached
  rcases follows.versions with same | ⟨_,none,_⟩ | ⟨old,rest,new,before,after,step⟩
  · exact ⟨workload,older,same.trans last,bound⟩
  · exact nomatch last.symm.trans none
  · obtain ⟨rfl,_⟩ := List.cons.inj (last.symm.trans before)
    refine ⟨new,workload :: rest,after,UInt64.le_trans bound ?_⟩
    have sequence : new.sequence = workload.sequence := step.elim Kept.sequence Restored.sequence
    rw [Workload.lastSequence,Workload.lastSequence,sequence]
    exact UInt64.le_refl _

/-- A component that an action took has a workload. -/
theorem Ruled.there {admitted : List Admitted} (ruled : Ruled last admitted cluster)
    {action : Action} (took : cluster.Took action) : cluster.versions ≠ [] := by
  rcases took with member | ⟨observed,reported⟩
  · obtain ⟨workload,older,versions,_⟩ := ruled.reached action member
    rw [versions]
    exact List.cons_ne_nil _ _
  · exact List.ne_nil_of_mem (ruled.observed action observed reported)

theorem Ruled.disturb {admitted : List Admitted} (ruled : Ruled last admitted a)
    (disturbs : Disturbs a b) : Ruled last admitted b := by
  have follows := disturbs.follows
  have same : ∀ action, b.Took action ↔ a.Took action := by
    intro action
    rw [Cluster.Took,Cluster.Took,follows.controls,follows.reports]
  refine ⟨follows.numbered ruled.numbered,?_,?_,?_,?_,?_,ruled.bound,ruled.distinct,ruled.submitted,?_,?_,?_⟩
  · rw [follows.controls]
    exact follows.governed ruled.governed
  · intro action member
    exact follows.reached (ruled.reached action (follows.controls ▸ member))
  · rw [follows.controls]
    exact ruled.controls
  · rw [follows.reports]
    exact ruled.reports
  · rw [follows.reports]
    exact fun action observed reported => follows.grows.mem (ruled.observed action observed reported)
  · rw [follows.controls]
    intro newer entry older split unwritten took
    have took := (same entry.action).mp took
    exact follows.inForce (ruled.there took) (ruled.desired newer entry older split unwritten took)
  · rw [follows.controls]
    exact fun newer entry older split took => ruled.ranked newer entry older split ((same _).mp took)
  · intro newer entry older split outranked
    rw [Cluster.Superseded,follows.reports] at outranked
    rw [follows.controls]
    exact ruled.outranked newer entry older split outranked

/-- The places in a list: its head, or one further on. -/
theorem cons_split {α : Type} {first entry : α} {rest newer older : List α} (split : first :: rest = newer ++ entry :: older) :
    (newer = [] ∧ entry = first ∧ older = rest) ∨ ∃ others, newer = first :: others ∧ rest = others ++ entry :: older := by
  cases newer with
  | nil =>
    obtain ⟨rfl,rfl⟩ := List.cons.inj split
    exact .inl ⟨rfl,rfl,rfl⟩
  | cons other others =>
    obtain ⟨rfl,rest⟩ := List.cons.inj split
    exact .inr ⟨others,rfl,rest⟩

theorem Ruled.admit {admitted : List Admitted} (ruled : Ruled last admitted cluster)
    (entry : Admitted) (fresh : ∀ earlier ∈ admitted, earlier.action ≠ entry.action) (next : Nat) (later : last ≤ next)
    (bound : entry.action.sequence.toNat ≤ next)
    (submitted : entry.submitted = true → last < entry.action.sequence.toNat) : Ruled next (entry :: admitted) cluster := by
  have unwritten : entry.action ∉ cluster.controls := by
    intro member
    obtain ⟨earlier,among,same⟩ := ruled.controls _ member
    exact fresh earlier among same
  have unreported : ∀ outcome, (entry.action,outcome) ∉ cluster.reports := by
    intro outcome member
    obtain ⟨earlier,among,same⟩ := ruled.reports _ _ member
    exact fresh earlier among same
  have untaken : ¬ cluster.Took entry.action := by
    rintro (member | ⟨observed,reported⟩)
    · exact unwritten member
    · exact unreported _ reported
  refine ⟨ruled.numbered,ruled.governed,ruled.reached,?_,?_,ruled.observed,?_,?_,?_,?_,?_,?_⟩
  · intro action member
    obtain ⟨earlier,among,same⟩ := ruled.controls action member
    exact ⟨earlier,List.mem_cons_of_mem _ among,same⟩
  · intro action outcome member
    obtain ⟨earlier,among,same⟩ := ruled.reports action outcome member
    exact ⟨earlier,List.mem_cons_of_mem _ among,same⟩
  · intro other member
    rcases List.mem_cons.mp member with rfl | earlier
    · exact bound
    · exact Nat.le_trans (ruled.bound other earlier) later
  · refine List.nodup_cons.mpr ⟨fun member => ?_,ruled.distinct⟩
    obtain ⟨earlier,among,same⟩ := List.mem_map.mp member
    exact fresh earlier among same
  · refine .cons (fun earlier member direct => ?_) ruled.submitted
    have before := ruled.bound earlier member
    have after := submitted direct
    rw [UInt64.lt_iff_toNat_lt]
    omega
  · intro newer other older split unwritten took
    rcases cons_split split with ⟨_,rfl,_⟩ | ⟨others,rfl,rest⟩
    · exact absurd took untaken
    · exact ruled.desired others other older rest (fun x member => unwritten x (List.mem_cons_of_mem _ member)) took
  · intro newer other older split took
    rcases cons_split split with ⟨_,rfl,_⟩ | ⟨others,_,rest⟩
    · exact absurd took untaken
    · exact ruled.ranked others other older rest took
  · intro newer other older split outranked
    rcases cons_split split with ⟨_,rfl,_⟩ | ⟨others,_,rest⟩
    · exact absurd outranked.choose_spec (unreported _)
    · exact ruled.outranked others other older rest outranked

section
variable {last : Nat} {newest : Admitted} {older : List Admitted} {a b : Cluster}

/-- The newest action takes control. -/
theorem Ruled.patch (ruled : Ruled last (newest :: older) a) (version : Option Nat) (plan : Plan)
    (serves : Serves newest.action (.patch version newest.action plan) a)
    (executed : execute (.patch version newest.action plan) a = .ok ((),b)) : Ruled last (newest :: older) b := by
  simp only [execute,bind_ok,require_ok,ensure_ok,pure_ok] at executed
  obtain ⟨old,found,_,same,done⟩ := executed
  cases done
  obtain ⟨rest,versions⟩ : ∃ rest, a.versions = old :: rest := List.head?_eq_some_iff.mp found
  obtain ⟨_,read,member,number,later⟩ := serves
  have numbered := ruled.numbered
  rw [versions] at numbered member
  obtain rfl : read = old := numbered.last member (same.trans number.symm)
  have carries := patched_carries read newest.action plan
  have others : ∀ entry ∈ older, entry.action ≠ newest.action := by
    intro entry member same
    exact (List.nodup_cons.mp ruled.distinct).1 (same ▸ List.mem_map_of_mem member)
  have behind : ∀ action ∈ a.controls, action.sequence ≤ newest.action.sequence := by
    intro action member
    obtain ⟨workload,_,here,bound⟩ := ruled.reached action member
    obtain ⟨rfl,_⟩ := List.cons.inj (versions.symm.trans here)
    exact UInt64.le_trans bound later
  have own : ∀ number, Carries newest.action { read.patched newest.action plan with resourceVersion := number } :=
    fun _ => ⟨carries.sequence,carries.state,carries.stops,carries.runs,carries.token⟩
  refine ⟨⟨rfl,ruled.numbered⟩,?_,?_,?_,ruled.reports,?_,ruled.bound,ruled.distinct,ruled.submitted,?_,?_,?_⟩
  · intro workload member
    rcases List.mem_cons.mp member with rfl | earlier
    · exact .inr ⟨newest.action,List.mem_cons_self,.inl (own _)⟩
    · rcases ruled.governed workload earlier with untouched | ⟨action,among,carried⟩
      · exact .inl untouched
      · exact .inr ⟨action,List.mem_cons_of_mem _ among,carried⟩
  · intro action member
    refine ⟨_,_,rfl,?_⟩
    rw [(own _).lastSequence]
    rcases List.mem_cons.mp member with rfl | earlier
    · exact UInt64.le_refl _
    · exact behind action earlier
  · intro action member
    rcases List.mem_cons.mp member with rfl | earlier
    · exact ⟨newest,List.mem_cons_self,rfl⟩
    · exact ruled.controls action earlier
  · exact fun action observed reported => List.mem_cons_of_mem _ (ruled.observed action observed reported)
  · intro newer entry older' split unwritten took workload rest' here
    rcases cons_split split with ⟨_,rfl,_⟩ | ⟨others',rfl,_⟩
    · obtain ⟨rfl,_⟩ := List.cons.inj here
      exact .inl (own _)
    · exact absurd List.mem_cons_self (unwritten newest List.mem_cons_self)
  · intro newer entry older' split took earlier member written
    rcases cons_split split with ⟨_,rfl,rfl⟩ | ⟨others',_,rest'⟩
    · rcases List.mem_cons.mp written with same | before
      · rw [same]
        exact UInt64.le_refl _
      · exact behind _ before
    · have here : entry ∈ older := by simp [rest']
      have there : earlier ∈ older := by simp [rest',member]
      refine ruled.ranked newer entry older' split ?_ earlier member
        ((List.mem_cons.mp written).resolve_left (others earlier there))
      exact took.imp (fun control => (List.mem_cons.mp control).resolve_left (others entry here)) id
  · intro newer entry older' split outranked
    obtain ⟨earlier,member,written,lower⟩ := ruled.outranked newer entry older' split outranked
    exact ⟨earlier,member,List.mem_cons_of_mem _ written,lower⟩

/-- The newest action is given a status. -/
theorem Ruled.report (ruled : Ruled last (newest :: older) a) (outcome : Outcome)
    (serves : Serves newest.action (.report newest.action outcome) a) :
    Ruled last (newest :: older) { a with reports := (newest.action,outcome) :: a.reports } := by
  have newestOnly : ∀ {newer entry older'}, newest :: older = newer ++ entry :: older' → entry.action = newest.action →
      newer = [] ∧ entry = newest ∧ older' = older := by
    intro newer entry older' split same
    rcases cons_split split with first | ⟨others,_,rest⟩
    · exact first
    · have member : entry ∈ older := by simp [rest]
      exact absurd (same ▸ List.mem_map_of_mem member) (List.nodup_cons.mp ruled.distinct).1
  have inForce : ∀ observed, outcome = .succeeded observed → observed ∈ a.versions ∧ a.InForce newest.action := by
    rintro observed rfl
    exact serves.2
  have took : ∀ action, ({ a with reports := (newest.action,outcome) :: a.reports } : Cluster).Took action →
      a.Took action ∨ (action = newest.action ∧ a.versions ≠ [] ∧ a.InForce newest.action) := by
    rintro action (member | ⟨observed,reported⟩)
    · exact .inl (.inl member)
    · rcases List.mem_cons.mp reported with same | earlier
      · obtain ⟨rfl,is⟩ := Prod.mk.inj same
        obtain ⟨there,force⟩ := inForce observed is.symm
        exact .inr ⟨rfl,List.ne_nil_of_mem there,force⟩
      · exact .inl (.inr ⟨observed,earlier⟩)
  refine ⟨ruled.numbered,ruled.governed,ruled.reached,ruled.controls,?_,?_,ruled.bound,ruled.distinct,ruled.submitted,
    ?_,?_,?_⟩
  · intro action other member
    rcases List.mem_cons.mp member with same | earlier
    · exact ⟨newest,List.mem_cons_self,(Prod.mk.inj same).1.symm⟩
    · exact ruled.reports action other earlier
  · intro action observed member
    rcases List.mem_cons.mp member with same | earlier
    · exact (inForce observed (Prod.mk.inj same).2.symm).1
    · exact ruled.observed action observed earlier
  · intro newer entry older' split unwritten taken
    rcases took _ taken with before | ⟨same,_,force⟩
    · exact ruled.desired newer entry older' split unwritten before
    · rw [same]
      exact force
  · intro newer entry older' split taken earlier member written
    rcases took _ taken with before | ⟨same,there,force⟩
    · exact ruled.ranked newer entry older' split before earlier member written
    · obtain ⟨workload,_,versions,bound⟩ := ruled.reached _ written
      rw [(force workload _ versions).lastSequence,← same] at bound
      exact bound
  · rintro newer entry older' split ⟨message,member⟩
    rcases List.mem_cons.mp member with same | earlier
    · obtain ⟨own,rfl⟩ := Prod.mk.inj same
      obtain ⟨_,rfl,rfl⟩ := newestOnly split own
      obtain ⟨workload,there,lower⟩ := serves.2 rfl
      rcases ruled.governed workload there with untouched | ⟨action,among,carried⟩
      · have zero : workload.lastSequence = 0 := by simp [Workload.lastSequence,untouched.sequence]
        rw [zero] at lower
        exact absurd lower (UInt64.not_lt.mpr (UInt64.zero_le))
      · rw [(show Carried action workload from carried).lastSequence] at lower
        obtain ⟨earlier,admitted,rfl⟩ := ruled.controls action among
        rcases List.mem_cons.mp admitted with rfl | before
        · exact absurd lower (UInt64.lt_irrefl _)
        · exact ⟨earlier,before,among,lower⟩
    · exact ruled.outranked newer entry older' split ⟨message,earlier⟩

theorem Ruled.own (ruled : Ruled last (newest :: older) a) {statement : Statement}
    (serves : Serves newest.action statement a) (executed : execute statement a = .ok ((),b)) :
    Ruled last (newest :: older) b := by
  cases statement with
  | patch version action plan =>
    obtain rfl := serves.1
    exact ruled.patch version plan serves executed
  | report action outcome =>
    obtain rfl : action = newest.action := by
      cases outcome with
      | running => exact serves
      | succeeded observed => exact serves.1
      | failed code message => exact serves.1
    cases executed
    exact ruled.report outcome serves
  | apply document => exact serves.elim
  | observe generation status => exact serves.elim
  | schedule pods => exact serves.elim
end

theorem served_ruled {admitted : List Admitted} (served : Served last admitted cluster) :
    Ruled last admitted cluster := by
  induction served with
  | empty => exact .empty
  | disturb _ changed ih => exact ih.disturb changed
  | operation _ ih => exact ih.operation
  | @submit last _ _ _ _ action fresh sequence ih =>
    refine ih.admit ⟨action,true⟩ (fun earlier member same => fresh earlier member (congrArg Action.operationId same)) _
      (Nat.le_succ last) ?_ fun _ => ?_
    · show action.sequence.toNat ≤ last + 1
      omega
    · show last < action.sequence.toNat
      omega
  | @call last _ _ _ _ action fresh task ih =>
    exact ih.admit ⟨action,false⟩ (fun earlier member same => fresh earlier member (congrArg Action.operationId same)) _
      (Nat.le_refl last) task fun direct => nomatch direct
  | @pass last newest older a _ _ _ _ plan started carries ih =>
    have meets := @reconcile_serves newest.action plan started a _ ih.governed
    exact (carries.meets meets ih (fun _ _ ruled changed => ruled.disturb changed)
      fun _ _ _ _ ruled serves executed => ruled.own serves executed).1

/-- Of actions that are admitted one after another, a submitted one is never
    superseded. A task's call is superseded only where one that was admitted before
    it, with a greater sequence, took control, and takes no control there itself.
    One that ended took control, or found the component as it would leave it, or
    failed; and the component is as the last one that did one of the first two has
    left it. -/
theorem latest_wins {last : Nat} {newer older : List Admitted} {entry : Admitted} {cluster : Cluster}
    (served : Served last (newer ++ entry :: older) cluster) :
    (entry.submitted = true → ¬ cluster.Superseded entry.action) ∧
      (cluster.Superseded entry.action →
        ∃ earlier ∈ older, earlier.action ∈ cluster.controls ∧ entry.action.sequence < earlier.action.sequence) ∧
      (cluster.Took entry.action → ∀ earlier ∈ older, earlier.action ∈ cluster.controls →
        earlier.action.sequence ≤ entry.action.sequence) ∧
      (cluster.ended entry.action →
        cluster.Took entry.action ∨ ∃ code message, (entry.action,.failed code message) ∈ cluster.reports) ∧
      ((∀ later ∈ newer, ¬ cluster.Took later.action) → cluster.Took entry.action → cluster.InForce entry.action) := by
  have ruled := served_ruled served
  have outranked := ruled.outranked newer entry older rfl
  refine ⟨fun direct reported => ?_,outranked,ruled.ranked newer entry older rfl,fun ended => ?_,fun untaken =>
    ruled.desired newer entry older rfl fun later member control => untaken later member (.inl control)⟩
  · obtain ⟨earlier,member,_,lower⟩ := outranked reported
    have ordered := (List.pairwise_cons.mp (List.pairwise_append.mp ruled.submitted).2.1).1 earlier member direct
    exact UInt64.lt_irrefl _ (UInt64.lt_trans lower ordered)
  · obtain ⟨outcome,reported,terminal⟩ := ended
    cases outcome with
    | running => exact nomatch terminal
    | succeeded observed => exact .inl (.inr ⟨observed,reported⟩)
    | failed code message => exact .inr ⟨code,message,reported⟩

/-! ### A task that is older than a stop -/

/-- The component is stopped after a task began, and the task starts it again. -/
def stopSecond : Action := ⟨"stop",2,.stop,false,.componentControl⟩
def startFirst : Action := ⟨"task-start",1,.start,false,.componentControl⟩

theorem one_runs : 0 < (1 : UInt16) := by decide

def mintPlan : Plan := ⟨.mint,"mint","data","digest",1,one_runs⟩

def mintWorkload : Workload := ⟨none,none,some "mint",some "data",none,none,some 1,some "digest",none,none⟩

theorem mintWorkload_fresh : mintWorkload.resourceVersion = none ∧ mintWorkload.state = none ∧
    mintWorkload.sequence = none ∧ mintWorkload.restartToken = none := ⟨rfl,rfl,rfl,rfl⟩

theorem mintWorkload_runs : ∃ count, 0 < count ∧ mintWorkload.replicas = some count := ⟨1,by decide,rfl⟩

def mintRendered : Rendered := ⟨mintWorkload,mintWorkload_fresh,mintWorkload_runs⟩

/-- One pass over an action. -/
def passed (action : Action) (cluster : Cluster) : Cluster :=
  (Sequenced.advanced execute 20 (reconcile action (some mintPlan) true).run cluster).2

/-- What a statement leaves, where it is not refused. -/
def executed (statement : Statement) (cluster : Cluster) : Cluster :=
  match execute statement cluster with
  | .ok (_,after) => after
  | .error _ => cluster

def rendered : Cluster := executed (.apply mintRendered.workload) emptyCluster
def stopping : Cluster := passed stopSecond rendered
def scaledDown : Cluster := executed (.observe (some 1) (some (.deployment ⟨some 1,none,none,none,none⟩))) stopping
def stopped : Cluster := passed stopSecond scaledDown
def restarted : Cluster := passed startFirst stopped

theorem passed_served {newest : Admitted} {older : List Admitted}
    (served : Served last (newest :: older) cluster) (going : ¬ cluster.ended newest.action) :
    Served last (newest :: older) (passed newest.action cluster) :=
  served.pass going (some mintPlan) true (Sequenced.advanced_carries 20 _ cluster)

theorem restarted_served : Served 2 [⟨startFirst,false⟩,⟨stopSecond,true⟩] restarted := by
  have start : Served 0 [] rendered := Served.empty.disturb (.render mintRendered rfl)
  have task := start.operation
  have stop := task.submit (by simp) stopSecond (by simp) rfl
  have first := passed_served stop (by decide +kernel)
  have second : Served 2 [⟨stopSecond,true⟩] scaledDown :=
    first.disturb (.observe (some 1) (some (.deployment ⟨some 1,none,none,none,none⟩)) rfl)
  have third := passed_served second (by decide +kernel)
  have call := third.call (by decide +kernel) startFirst (by decide) (by decide)
  exact passed_served call (by decide +kernel)

/-- The task's call succeeded on nothing: it has one report. -/
theorem restarted_untaken : ¬ restarted.Took startFirst := by
  rintro (control | ⟨observed,reported⟩)
  · exact absurd control (by decide +kernel)
  · have codes : ∀ report ∈ restarted.reports, report.1 = startFirst → report.2.code = some superseded := by
      decide +kernel
    exact nomatch codes _ reported rfl

theorem latest_wins_stop : restarted.InForce stopSecond ∧ restarted.Superseded startFirst := by
  have stop := @latest_wins 2 [⟨startFirst,false⟩] [] ⟨stopSecond,true⟩ restarted restarted_served
  refine ⟨stop.2.2.2.2 (fun later member => ?_) (.inl (by decide +kernel)),by decide +kernel⟩
  obtain rfl := List.mem_singleton.mp member
  exact restarted_untaken

/-- The call of a task is superseded although each action ended before the next. -/
theorem not_always_latest : ¬ ∀ (last : Nat) (admitted : List Admitted) (cluster : Cluster),
    Served last admitted cluster → ∀ entry ∈ admitted, ¬ cluster.Superseded entry.action := by
  intro always
  exact always 2 _ _ restarted_served ⟨startFirst,false⟩ (List.mem_cons_self ..) (by decide +kernel)
end Proofstorm.Lifecycle
