import Proofstorm.Guarded
import Proofstorm.Roles
import Proofstorm.Unstarted.Passes

/-!
The runs of the passes over one action. For a native action the version of the
action is the fence: a start is claimed, and an action is given up as not started,
only in the version that the pass was handed, and the cancellation of a start that
was not claimed makes a new one (`Claims`). A Job has no such fence.
-/
namespace Proofstorm.Unstarted
open Proofstorm.Core (Json)
open Proofstorm.Actions (Action ActionStatus Failure NativeExecutionRef unavailable)
open Proofstorm.Bridge (ActionPhase Entries Spec Wire cancelAnnotationKey)
open Proofstorm.Interleaving

/-- An action as the server makes it. -/
structure Creation where
  object : Object
  unset : object.status = none
  unmerged : object.merged = emptyStatus

def Creation.world (creation : Creation) (now : Int) : World := ⟨now,some creation.object,none,[creation.object],[],[]⟩

inductive Request
  /-- A pass that is handed a version of the action. -/
  | reconcile (place : Nat) (findings : Findings)
  | annotate (key value : String)
  | happens (change : JobState → Option JobState)
  | delete
  | tick (seconds : Nat)

section
variable [Wire]

def body : Request → Program Unit
  | .reconcile place findings => do
    match ← query fun world => .ok world.served[place]? with
    | none => pure ()
    | some copy => reconcileAction copy findings
  | .annotate key value => exec (.annotate key value)
  | .happens change => exec (.happens change)
  | .delete => exec .deleteAction
  | .tick seconds => exec (.tick seconds)

def code (request : Request) : Call World Statement Failure Statement.Answer (Except Failure Unit) := (body request).run
end

abbrev Config := Interleaving.Config Request World Statement Failure Statement.Answer (Except Failure Unit)

abbrev Entry := Interleaving.Running Request World Statement Failure Statement.Answer (Except Failure Unit)

/-! ### What holds of every state -/

/-- It has been recorded that nothing was run. -/
def Declared (world : World) : Prop := ∃ status ∈ world.recorded, SaysUnstarted status

/-- A start has been claimed. -/
def Claimed (world : World) : Prop := ∃ c ∈ world.served, nativeHandle c ≠ none

/-- A status that is not the end of a command has its handle and its start time. -/
def Handled (status : ActionStatus) : Prop :=
  status.phase.terminal = false → status.nativeExecution ≠ none ∧ status.startedAtUnix ≠ none

/-- What the version of the action sees to for a native action. -/
structure Claims (world : World) : Prop where
  handled : ∀ c ∈ world.served, ∀ status, c.status = some status → Handled status
  claimed : world.natives ≠ [] → Claimed world
  merged : ∀ o, world.action = some o → o.merged.nativeExecution ≠ none → Claimed world
  excluded : Declared world → ¬ Claimed world
  /-- Once a cancellation is asked for before a start was claimed, none is. -/
  stopped : ∀ c ∈ world.served, c.cancelRequested = true → c.status = none → ¬ Claimed world

structure Sound (spec : Spec) (world : World) : Prop where
  newest : ∀ o, world.action = some o → o ∈ world.served ∧
    ∀ c ∈ world.served, c.resourceVersion ≤ o.resourceVersion ∧ (c.resourceVersion = o.resourceVersion → c = o)
  kind : ∀ c ∈ world.served, c.spec = spec
  cancelled : ∀ o, world.action = some o → ∀ c ∈ world.served, c.cancelRequested = true → o.cancelRequested = true
  fresh : ∀ o, world.action = some o → o.status = none → world.recorded = [] ∧ ∀ c ∈ world.served, c.status = none
  merged : ∀ o, world.action = some o → errorCode o.merged = some "action_not_started" → Declared world
  begun : route spec.action = .job → ∀ c ∈ world.served, ∀ status, c.status = some status → status.phase ≠ .pending
  jobless : route spec.action ≠ .job → world.job = none
  commandless : route spec.action ≠ .native → world.natives = []
  claims : route spec.action = .native → Claims world

/-- What others may make of a state. -/
def Later (world after : World) : Prop := world.served ⊆ after.served

/-- The precondition of a statement. -/
def Needs (spec : Spec) : Statement → World → Prop
  | .applyStatus status, world => (route spec.action = .job → status.phase ≠ .pending) ∧
      (route spec.action = .native → Handled status ∧ (status.nativeExecution ≠ none → Claimed world) ∧
        (SaysUnstarted status → ¬ Claimed world))
  | .mergeStatus version status, world => status.phase ≠ .pending ∧
      (errorCode status = some "action_not_started" → status.phase = .failed) ∧
      (route spec.action ≠ .direct → ∃ c ∈ world.served, c.resourceVersion = version ∧ c.status = none ∧
        c.cancelRequested = false) ∧
      (route spec.action = .native → Handled status ∧ (status.nativeExecution ≠ none → ¬ SaysUnstarted status))
  | .createJob seen, _ => route spec.action = .job ∧ seen = none
  | .startNative _, world => route spec.action = .native ∧ Claimed world
  | _, _ => True

section
variable {spec : Spec} {world after : World} {o : Object}

theorem Later.refl (world : World) : Later world world := List.Subset.refl _

theorem Later.trans (a b c : World) (first : Later a b) (second : Later b c) : Later a c := List.Subset.trans first second

theorem Claimed.later (claimed : Claimed world) (step : Later world after) : Claimed after :=
  claimed.imp fun _ holds => ⟨step holds.1,holds.2⟩

theorem cancelRequested_annotated (o : Object) (key value : String) (asked : o.cancelRequested = true) :
    (o.annotated key value).cancelRequested = true := by
  change (Entries.get (Entries.insert o.annotations key value) cancelAnnotationKey).isSome = true
  rw [Entries.get_insert]
  split
  · rfl
  · exact asked

theorem errorCode_without (status taken : ActionStatus) (code : errorCode (without status taken) = some "action_not_started") :
    errorCode status = some "action_not_started" := by
  simp only [errorCode,without] at code ⊢
  split at code
  · simp at code
  · exact code

/-- What says that nothing was run is written so, or was merged before. -/
theorem saysUnstarted_overlay {status under : ActionStatus} (says_ : SaysUnstarted (overlay status under)) :
    SaysUnstarted status ∨ errorCode under = some "action_not_started" := by
  rcases says_ with ⟨failed,code⟩ | ⟨cancelled,unstarted⟩
  · simp only [errorCode,overlay] at code
    cases error : status.error with
    | none =>
      rw [error] at code
      exact .inr code
    | some value =>
      rw [error] at code
      refine .inl (.inl ⟨failed,?_⟩)
      rw [errorCode,error]
      exact code
  · simp only [overlay,Option.or_eq_none_iff] at unstarted
    exact .inl (.inr ⟨cancelled,unstarted.1⟩)

/-! ### One statement -/

/-- What holds of the served versions when the server serves another. -/
theorem Sound.serve (sound : Sound spec world) (there : world.action = some o) {next : Object} {status : Option ActionStatus}
    (version : next.resourceVersion = o.resourceVersion + 1) (kind : next.spec = o.spec)
    (asked : o.cancelRequested = true → next.cancelRequested = true)
    (shows : next.status = none → status = none ∧ o.status = none)
    (merged : errorCode next.merged = some "action_not_started" → Declared (world.serve next status))
    (begun : route spec.action = .job → ∀ status, next.status = some status → status.phase ≠ .pending)
    (claims : route spec.action = .native → Claims (world.serve next status)) : Sound spec (world.serve next status) := by
  obtain ⟨member,newest⟩ := sound.newest o there
  exact
    { newest := by
        rintro _ ⟨⟩
        refine ⟨List.mem_cons_self,fun c served => ?_⟩
        rcases List.mem_cons.mp served with rfl | served
        · exact ⟨le_rfl,fun _ => rfl⟩
        · have older := (newest c served).1
          exact ⟨by omega,fun same => by omega⟩
      kind := fun c served => by
        rcases List.mem_cons.mp served with rfl | served
        · exact kind.trans (sound.kind o member)
        · exact sound.kind c served
      cancelled := by
        rintro _ ⟨⟩ c served cancel
        rcases List.mem_cons.mp served with rfl | served
        · exact cancel
        · exact asked (sound.cancelled o there c served cancel)
      fresh := by
        rintro _ ⟨⟩ unset
        obtain ⟨rfl,old⟩ := shows unset
        obtain ⟨none_,all⟩ := sound.fresh o there old
        refine ⟨none_,fun c served => ?_⟩
        rcases List.mem_cons.mp served with rfl | served
        · exact unset
        · exact all c served
      merged := by
        rintro _ ⟨⟩
        exact merged
      begun := fun job c served => by
        rcases List.mem_cons.mp served with rfl | served
        · exact begun job
        · exact sound.begun job c served
      jobless := sound.jobless
      commandless := sound.commandless
      claims := claims }

theorem Declared.serve (declared : Declared world) (next : Object) (status : Option ActionStatus) :
    Declared (world.serve next status) :=
  declared.imp fun _ holds => ⟨List.mem_append_right _ holds.1,holds.2⟩

theorem claimed_serve {next : Object} {status : Option ActionStatus} :
    Claimed (world.serve next status) ↔ nativeHandle next ≠ none ∨ Claimed world := by
  constructor
  · rintro ⟨c,served,handle⟩
    rcases List.mem_cons.mp served with rfl | served
    · exact .inl handle
    · exact .inr ⟨c,served,handle⟩
  · rintro (handle | claimed)
    · exact ⟨next,List.mem_cons_self,handle⟩
    · exact claimed.later (List.subset_cons_self _ _)

section
variable (sound : Sound spec world) (there : world.action = some o)
include sound there

/-- Where the action has no status, nothing was claimed or recorded. -/
theorem Sound.unclaimed (unset : o.status = none) :
    ¬ Claimed world ∧ ¬ Declared world := by
  obtain ⟨none_,all⟩ := sound.fresh o there unset
  refine ⟨fun ⟨c,served,handle⟩ => ?_,fun ⟨status,recorded,_⟩ => ?_⟩
  · rw [nativeHandle,all c served] at handle
    exact handle rfl
  · rw [none_] at recorded
    exact nomatch recorded

theorem Sound.annotate (key value : String) :
    Sound spec (world.serve (o.annotated key value) none) := by
  have member := (sound.newest o there).1
  refine sound.serve there rfl rfl (cancelRequested_annotated o key value) (fun unset => ⟨rfl,unset⟩)
    (fun code => (sound.merged o there code).serve _ _) (fun job => sound.begun job o member) fun native => ?_
  have claims := sound.claims native
  have back : Claimed (world.serve (o.annotated key value) none) → Claimed world :=
    fun claimed => (claimed_serve.mp claimed).elim (fun handle => ⟨o,member,handle⟩) id
  exact
    { handled := fun c served => by
        rcases List.mem_cons.mp served with rfl | served
        · exact claims.handled o member
        · exact claims.handled c served
      claimed := fun some_ => (claims.claimed some_).later (List.subset_cons_self _ _)
      merged := by
        rintro _ ⟨⟩ handle
        exact (claims.merged o there handle).later (List.subset_cons_self _ _)
      excluded := fun declared claimed => claims.excluded declared (back claimed)
      stopped := fun c served asked unset claimed => by
        rcases List.mem_cons.mp served with rfl | served
        · exact (sound.unclaimed there unset).1 (back claimed)
        · exact claims.stopped c served asked unset (back claimed) }

theorem Sound.applyStatus {status : ActionStatus}
    (needs : Needs spec (.applyStatus status) world) :
    Sound spec (world.serve (o.applied status) (o.applied status).status) := by
  refine sound.serve there rfl rfl id (fun unset => nomatch unset)
    (fun code => (sound.merged o there (errorCode_without _ _ code)).serve _ _) (fun job => ?_) fun native => ?_
  · rintro _ ⟨⟩
    exact needs.1 job
  · have claims := sound.claims native
    obtain ⟨handled,hasClaim,unclaimed⟩ := needs.2 native
    have back : Claimed (world.serve (o.applied status) (o.applied status).status) → Claimed world := by
      intro claimed
      rcases claimed_serve.mp claimed with handle | claimed
      · cases own : status.nativeExecution with
        | some reference => exact hasClaim (by simp [own])
        | none =>
          refine claims.merged o there fun none_ => handle ?_
          simp [nativeHandle,Object.applied,overlay,without,own,none_]
      · exact claimed
    exact
      { handled := fun c served => by
          rcases List.mem_cons.mp served with rfl | served
          · rintro _ ⟨⟩ running
            obtain ⟨handle,started⟩ := handled running
            exact ⟨by simp [overlay,handle],by simp [overlay,started]⟩
          · exact claims.handled c served
        claimed := fun some_ => (claims.claimed some_).later (List.subset_cons_self _ _)
        merged := by
          rintro _ ⟨⟩ handle
          refine (claims.merged o there fun none_ => handle ?_).later (List.subset_cons_self _ _)
          simp [Object.applied,without,none_]
        excluded := by
          rintro ⟨other,recorded,says_⟩ claimed
          rcases List.mem_cons.mp recorded with rfl | recorded
          · rcases saysUnstarted_overlay says_ with own | old
            · exact unclaimed own (back claimed)
            · exact claims.excluded (sound.merged o there (errorCode_without _ _ old)) (back claimed)
          · exact claims.excluded ⟨other,recorded,says_⟩ (back claimed)
        stopped := fun c served asked unset claimed => by
          rcases List.mem_cons.mp served with rfl | served
          · exact nomatch unset
          · exact claims.stopped c served asked unset (back claimed) }
end

theorem errorCode_over (status under : ActionStatus) :
    errorCode (overlay status under) = if status.error.isSome then errorCode status else errorCode under := by
  cases error : status.error <;> simp [errorCode,overlay,error]

theorem Sound.mergeStatus (sound : Sound spec world) (there : world.action = some o) {status : ActionStatus}
    (needs : Needs spec (.mergeStatus o.resourceVersion status) world) :
    Sound spec (world.serve (o.patched status) (o.patched status).status) := by
  obtain ⟨begun,failed,fenced,native_⟩ := needs
  have member := (sound.newest o there).1
  -- The version is that of a copy without a status, so the action has none.
  have current : route spec.action ≠ .direct → o.status = none ∧ o.cancelRequested = false := by
    intro other
    obtain ⟨c,served,version,unset,unasked⟩ := fenced other
    obtain rfl := ((sound.newest o there).2 c served).2 version
    exact ⟨unset,unasked⟩
  refine sound.serve there rfl rfl id (fun unset => nomatch unset) (fun code => ?_) (fun job => ?_) fun native => ?_
  · change errorCode (overlay status o.merged) = _ at code
    rw [errorCode_over] at code
    split at code
    · rename_i own
      refine ⟨_,List.mem_cons_self,.inl ⟨failed code,?_⟩⟩
      rw [errorCode_over,if_pos own]
      exact code
    · exact (sound.merged o there code).serve _ _
  · rintro _ ⟨⟩
    exact begun
  · have claims := sound.claims native
    obtain ⟨unset,unasked⟩ := current (by simp [native])
    obtain ⟨unclaimed,undeclared⟩ := sound.unclaimed there unset
    obtain ⟨handled,claims_⟩ := native_ native
    have becomes : (o.patched status).status = some (overlay status emptyStatus) := by
      rw [Object.patched,unset]
      rfl
    exact
      { handled := fun c served => by
          rcases List.mem_cons.mp served with rfl | served
          · rintro _ same running
            obtain rfl := Option.some.inj (becomes.symm.trans same)
            obtain ⟨handle,started⟩ := handled running
            exact ⟨by simp [overlay,handle],by simp [overlay,started]⟩
          · exact claims.handled c served
        claimed := fun some_ => (claims.claimed some_).later (List.subset_cons_self _ _)
        merged := by
          rintro _ ⟨⟩ handle
          rw [claimed_serve,nativeHandle,becomes]
          cases own : status.nativeExecution with
          | some reference => exact .inl (by simp [overlay,own])
          | none =>
            refine .inr (claims.merged o there fun none_ => handle ?_)
            simp [Object.patched,overlay,own,none_]
        excluded := by
          rintro ⟨other,recorded,says_⟩ claimed
          rw [becomes] at recorded
          rcases List.mem_cons.mp recorded with rfl | recorded
          · rcases saysUnstarted_overlay says_ with own | old
            · have handleless : status.nativeExecution = none := by
                by_contra handle
                exact claims_ handle own
              refine (claimed_serve.mp claimed).elim (fun handle => handle ?_) unclaimed
              rw [nativeHandle,becomes]
              simp [overlay,handleless,emptyStatus]
            · exact nomatch old
          · exact undeclared ⟨other,recorded,says_⟩
        stopped := fun c served asked => by
          rcases List.mem_cons.mp served with rfl | served
          · exact fun none_ => nomatch none_
          · exact absurd (sound.cancelled o there c served asked) (by simp [unasked]) }

theorem Sound.step {statement : Statement} {answer : statement.Answer} (sound : Sound spec world)
    (needs : Needs spec statement world) (executed : execute statement world = .ok (answer,after)) :
    Sound spec after ∧ Later world after := by
  cases statement with
  | annotate key value =>
    simp only [execute,bind_ok,require_ok] at executed
    obtain ⟨o,there,executed⟩ := executed
    cases executed
    exact ⟨sound.annotate there key value,List.subset_cons_self _ _⟩
  | applyStatus status =>
    simp only [execute,bind_ok,require_ok] at executed
    obtain ⟨o,there,executed⟩ := executed
    cases executed
    exact ⟨sound.applyStatus there needs,List.subset_cons_self _ _⟩
  | mergeStatus version status =>
    simp only [execute,bind_ok,require_ok,ensure_ok] at executed
    obtain ⟨o,there,_,rfl,executed⟩ := executed
    cases executed
    exact ⟨sound.mergeStatus there needs,List.subset_cons_self _ _⟩
  | createJob seen =>
    cases executed
    exact ⟨{ sound with
      jobless := fun other => absurd needs.1 other
      claims := fun native => { sound.claims native with } },.refl _⟩
  | deleteJob =>
    simp only [execute,bind_ok] at executed
    obtain ⟨_,_,executed⟩ := executed
    cases executed
    exact ⟨sound,.refl _⟩
  | happens change =>
    cases executed
    exact ⟨{ sound with
      jobless := fun other => by rw [sound.jobless other]; rfl
      claims := fun native => { sound.claims native with } },.refl _⟩
  | startNative reference =>
    cases executed
    exact ⟨{ sound with
      commandless := fun other => absurd needs.1 other
      claims := fun native => { sound.claims native with claimed := fun _ => needs.2 } },.refl _⟩
  | deleteAction =>
    simp only [execute,bind_ok] at executed
    obtain ⟨_,_,executed⟩ := executed
    cases executed
    exact ⟨{ sound with
      newest := fun _ gone => by cases gone
      cancelled := fun _ gone => by cases gone
      fresh := fun _ gone => by cases gone
      merged := fun _ gone => by cases gone
      claims := fun native => { sound.claims native with merged := fun _ gone => by cases gone } },.refl _⟩
  | tick seconds =>
    cases executed
    exact ⟨{ sound with claims := fun native => { sound.claims native with } },.refl _⟩
end

end Proofstorm.Unstarted
