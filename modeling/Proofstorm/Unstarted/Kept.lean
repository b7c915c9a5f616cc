import Proofstorm.Unstarted.Runs

/-!
What a pass over an action keeps to. It knows its copy, which the server has
served (`Copied`); most of what it writes needs no more (`Allowed`). A command is
started where the claim of this very pass was accepted.
-/
namespace Proofstorm.Unstarted
open Proofstorm.Core (Json)
open Proofstorm.Actions (ActionStatus Failure NativeExecutionRef actionExecutionStarted isTerminal startDeadlinePassed)
open Proofstorm.Bridge (ActionPhase Spec Wire)
open Proofstorm.Interleaving

/-- What is known of a version that was served. -/
structure Copied (spec : Spec) (copy : Object) : Prop where
  kind : copy.spec = spec
  begun : route spec.action = .job → ∀ status, copy.status = some status → status.phase ≠ .pending
  handled : route spec.action = .native → ∀ status, copy.status = some status → Handled status

/-- What a pass with this copy may execute in every state. -/
def Allowed (spec : Spec) (copy : Object) (statement : Statement) : Prop :=
  ∀ world, Sound spec world → copy ∈ world.served → Needs spec statement world

abbrev Kept {α : Type} (spec : Spec) (copy : Object) (call : Program α) : Prop :=
  Keeps (fun world => copy ∈ world.served) (Allowed spec copy) call fun _ => True

section
variable {spec : Spec} {world : World} {copy : Object} {status : ActionStatus} {findings : Findings}

theorem Sound.copied (sound : Sound spec world) (served : copy ∈ world.served) : Copied spec copy :=
  ⟨sound.kind copy served,fun job => sound.begun job copy served,fun native => (sound.claims native).handled copy served⟩

variable {details : List (String × Json)} {message : String}

theorem errorCode_object {code : String}
    (error : status.error = some (.object (("code",.str code) :: details))) : errorCode status = some code := by
  rw [errorCode,error]
  rfl

/-- The end of an action, of which it is not said that nothing was run. -/
theorem allowed_end (terminal : status.phase.terminal = true) (handleless : status.nativeExecution = none)
    (run : ¬ SaysUnstarted status) : Allowed spec copy (.applyStatus status) := by
  intro world _ _
  refine ⟨fun _ pending => ?_,fun _ => ⟨fun running => ?_,fun handle => absurd handleless handle,fun says_ => absurd says_ run⟩⟩
  · rw [pending] at terminal
    exact nomatch terminal
  · exact nomatch terminal.symm.trans running

theorem keeps_patch {fact : World → Prop} {allowed : Statement → Prop} (permits : allowed (.applyStatus status)) :
    Keeps fact allowed (patchActionStatus copy status) fun _ => True := by
  rw [patchActionStatus]
  exact keeps_ite.mpr ⟨fun _ => keeps_pure.mpr trivial,fun _ => keeps_submit.mpr ⟨permits,fun _ => trivial⟩⟩

theorem kept_patch (allowed : Allowed spec copy (.applyStatus status)) : Kept spec copy (patchActionStatus copy status) :=
  keeps_patch allowed

theorem not_unstarted {code : String} (failed : status.phase = .failed)
    (error : status.error = some (.object (("code",.str code) :: details))) (other : code ≠ "action_not_started") :
    ¬ SaysUnstarted status := by
  rintro (⟨_,same⟩ | ⟨cancelled,_⟩)
  · rw [errorCode_object error] at same
    exact other (Option.some.inj same)
  · exact nomatch failed.symm.trans cancelled

theorem allowed_failed {code : String} (failed : status.phase = .failed)
    (handleless : status.nativeExecution = none) (error : status.error = some (.object (("code",.str code) :: details)))
    (other : code ≠ "action_not_started") : Allowed spec copy (.applyStatus status) :=
  allowed_end (by rw [failed]; rfl) handleless (not_unstarted failed error other)

theorem kept_failure {code : String} (other : code ≠ "action_not_started") :
    Kept spec copy (patchActionFailure copy code message) := by
  simp only [patchActionFailure,clock,keeps_bind,keeps_query]
  exact fun _ _ _ _ => kept_patch (allowed_failed rfl rfl rfl other)

theorem kept_invalid : Kept spec copy (patchInvalidAction copy message) := kept_failure (by decide)

section
variable (copied : Copied spec copy) (open_ : isTerminal copy.status = false)
include copied open_

/-- A copy that neither runs nor has ended has no status. -/
theorem Copied.unset (unstarted : actionExecutionStarted copy.status = false)
    (indirect : route spec.action ≠ .direct) : copy.status = none := by
  cases there : copy.status with
  | none => rfl
  | some status =>
    rw [there] at open_ unstarted
    simp only [isTerminal,actionExecutionStarted,Option.any_some,Bool.or_eq_false_iff,decide_eq_false_iff_not,
      Option.isSome_eq_false_iff,Option.isNone_iff_eq_none] at open_ unstarted
    cases kind : route spec.action with
    | direct => exact absurd kind indirect
    | native => exact absurd unstarted.2 (copied.handled kind status there open_).2
    | job =>
      have begun := copied.begun kind status there
      cases phase : status.phase with
      | pending => exact absurd phase begun
      | running => exact absurd phase unstarted.1.1
      | _ => rw [phase] at open_; exact nomatch open_

theorem Copied.handleless (native : route spec.action = .native)
    (none_ : nativeHandle copy = none) : copy.status = none := by
  cases there : copy.status with
  | none => rfl
  | some status =>
    rw [nativeHandle,there] at none_
    rw [there] at open_
    exact absurd none_ (copied.handled native status there open_).1

theorem kept_expire (unstarted : actionExecutionStarted copy.status = false) (unasked : copy.cancelRequested = false) :
    Kept spec copy (expireUnstartedAction copy) := by
  have allowed : ∀ now, Allowed spec copy (.mergeStatus copy.resourceVersion (notStartedStatus copy now)) := by
    intro now world _ served
    refine ⟨nofun,fun _ => rfl,fun indirect => ⟨copy,served,rfl,copied.unset open_ unstarted indirect,unasked⟩,fun _ => ?_⟩
    exact ⟨nofun,fun handle => absurd rfl handle⟩
  simp only [expireUnstartedAction,keeps_bind,keeps_query]
  intro _ _ outcome _
  split
  · exact keeps_pure.mpr trivial
  · simp only [keeps_bind,keeps_attempt_submit]
    refine ⟨allowed _,fun answer => ?_⟩
    split
    · exact keeps_pure.mpr trivial
    · exact keeps_pure.mpr trivial
    · exact keeps_throw

theorem kept_cancellation (asked : copy.cancelRequested = true)
    (none_ : route spec.action = .native → nativeHandle copy = none) :
    Kept spec copy (reconcileActionCancellation copy) := by
  have allowed : ∀ now, Allowed spec copy (.applyStatus (cancelledStatus copy now)) := by
    intro now world sound served
    refine ⟨fun _ => nofun,fun native => ⟨nofun,fun handle => absurd rfl handle,fun _ => ?_⟩⟩
    exact (sound.claims native).stopped copy served asked (copied.handleless open_ native (none_ native))
  rw [reconcileActionCancellation]
  refine keeps_ite.mpr ⟨fun _ => kept_failure (by decide),fun _ => ?_⟩
  simp only [keeps_bind,keeps_query]
  intro _ _ outcome _
  split
  · exact keeps_submit.mpr ⟨fun _ _ _ => trivial,fun _ => trivial⟩
  · exact kept_patch (allowed _)

theorem kept_followNative (native : route spec.action = .native) {reference : NativeExecutionRef}
    (handle : nativeHandle copy = some reference)
    (timeout : Nat) (reply : Reply) : Kept spec copy (followNative copy reference timeout reply) := by
  have claimed : ∀ world, copy ∈ world.served → Claimed world := fun world served => ⟨copy,served,by simp [handle]⟩
  have started : startedAt copy ≠ none := by
    rw [nativeHandle] at handle
    obtain ⟨status,there,some_⟩ := Option.bind_eq_some_iff.mp handle
    rw [startedAt,there]
    rw [there] at open_
    exact (copied.handled native status there open_).2
  cases reply with
  | busy => exact keeps_pure.mpr trivial
  | podChanged => exact kept_failure (by decide)
  | runnerError => exact kept_failure (by decide)
  | unanswered =>
    simp only [followNative,clock,keeps_bind,keeps_query]
    exact fun _ _ _ _ => keeps_ite.mpr ⟨fun _ => kept_failure (by decide),fun _ => keeps_pure.mpr trivial⟩
  | receipt clean cancelled custodyPending receipt =>
    simp only [followNative,clock,keeps_bind,keeps_query]
    intro _ _ now _
    refine keeps_ite.mpr ⟨fun _ => kept_patch fun world _ served => ?_,fun _ => kept_patch fun world _ served => ?_⟩
    · refine ⟨fun job => (by cases native.symm.trans job),fun _ => ⟨fun _ => ⟨by simp,by simp⟩,fun _ => claimed world served,?_⟩⟩
      rintro (⟨failed,_⟩ | ⟨cancelled,_⟩)
      · cases failed
      · cases cancelled
    · have ended : (if clean = false ∨ custodyPending = true then ActionPhase.failed
          else if cancelled = true then .cancelled else .succeeded).terminal = true := by
        split
        · rfl
        · split <;> rfl
      refine ⟨fun job => (by cases native.symm.trans job),fun _ =>
        ⟨fun running => (by cases ended.symm.trans running),fun _ => claimed world served,?_⟩⟩
      rintro (⟨_,code⟩ | ⟨_,unstarted⟩)
      · cases clean with
        | true => cases code
        | false => exact absurd (Option.some.inj code) (by decide)
      · exact absurd unstarted started

theorem kept_job (job : route spec.action = .job) :
    Kept spec copy (reconcileJob copy findings) := by
  have plain : ∀ {status : ActionStatus}, status.phase ≠ .pending → Allowed spec copy (.applyStatus status) :=
    fun begun _ _ _ => ⟨fun _ => begun,fun native => by cases job.symm.trans native⟩
  rw [reconcileJob]
  split
  · simp only [clock,keeps_bind,keeps_query]
    exact fun _ _ _ _ => kept_patch (plain (by rintro ⟨⟩))
  · simp only [keeps_bind,keeps_query]
    intro _ _ outcome _
    split
    · refine keeps_ite.mpr ⟨fun _ => kept_patch (plain (by rintro ⟨⟩)),fun unstarted => ?_⟩
      simp only [clock,keeps_bind,keeps_submit,keeps_query]
      refine ⟨fun _ _ _ => ⟨job,copied.unset open_ (by simpa using unstarted) (by simp [job])⟩,fun _ _ _ _ _ => ?_⟩
      exact kept_patch (plain (by rintro ⟨⟩))
    · exact kept_patch (plain (by rintro ⟨⟩))
    · exact kept_patch (plain (by rintro ⟨⟩))
    · split
      · exact kept_patch (plain (by rintro ⟨⟩))
      · exact kept_patch (plain (by rintro ⟨⟩))
end

theorem route_owned (owned : isOwnedNetwork copy = true) : route copy.spec.action = .direct := by
  simp only [isOwnedNetwork,Bool.and_eq_true] at owned
  cases kind : copy.spec.action with
  | networkPartition | networkHeal => rfl
  | componentStart | componentStop | componentRestart | componentExecLive | other => simp [kind] at owned

/-- An action that the controller executes itself has neither a Job nor a command. -/
theorem kept_direct (direct : route spec.action = .direct) :
    Kept spec copy (findings.direct.elim (pure ()) (patchActionStatus copy)) := by
  cases findings.direct with
  | none => exact keeps_pure.mpr trivial
  | some status =>
    exact kept_patch fun _ _ _ => ⟨fun job => (nomatch direct.symm.trans job),fun native => (nomatch direct.symm.trans native)⟩

theorem keeps_expireFinished [Wire] {fact : World → Prop} {allowed : Statement → Prop} (permits : allowed .deleteAction) :
    Keeps fact allowed (expireFinishedAction copy) fun _ => True := by
  rw [expireFinishedAction]
  split
  · exact keeps_pure.mpr trivial
  · simp only [clock,keeps_bind,keeps_query]
    refine fun _ _ _ _ => keeps_ite.mpr ⟨fun _ => keeps_pure.mpr trivial,fun _ => ?_⟩
    simp only [keeps_bind,keeps_attempt_submit]
    refine ⟨permits,fun answer => ?_⟩
    split
    · exact keeps_pure.mpr trivial
    · exact keeps_pure.mpr trivial
    · exact keeps_throw

/-- The call keeps to its part from this state on. -/
abbrev Keeping {α : Type} (spec : Spec) (call : Program α) (world : World) : Prop :=
  call.run.Upholds execute (fun _ world => Sound spec world) Later (Needs spec) world

theorem Kept.then {α β : Type} {call : Program α} {k : α → Program β} (kept : Kept spec copy call)
    (then_ : ∀ value world, copy ∈ world.served → Keeping spec (k value) world) (served : copy ∈ world.served) :
    Keeping spec (call >>= k) world := by
  have stays : ∀ before after : World, copy ∈ before.served → Later before after → copy ∈ after.served :=
    fun _ _ served step => step served
  exact Keeps.upholds kept stays (fun _ state sound served allowed => allowed state sound served)
    (fun value state served _ => then_ value state served) served

theorem Kept.keeping {call : Program Unit} (kept : Kept spec copy call) (served : copy ∈ world.served) : Keeping spec call world := by
  rw [← bind_pure call]
  exact kept.then (fun _ _ _ => True.intro) served

section
variable (copied : Copied spec copy) (open_ : isTerminal copy.status = false)
include copied open_

/-- The claim that is accepted makes a version of the action with a handle. -/
theorem keeping_openNative (native : route spec.action = .native) (none_ : nativeHandle copy = none)
    (unasked : copy.cancelRequested = false)
    (opening : Opening) (served : copy ∈ world.served) : Keeping spec (openNative copy opening) world := by
  unfold openNative
  split
  · exact (kept_failure (by decide)).keeping served
  · cases opening with
    | busy => exact True.intro
    | podNotReady => exact (kept_failure (by decide)).keeping served
    | custodyRefused => exact (kept_failure (by decide)).keeping served
    | invalid message => exact kept_invalid.keeping served
    | failed => exact True.intro
    | ready reference launch =>
      have needs : ∀ now world, copy ∈ world.served →
          Needs spec (.mergeStatus copy.resourceVersion (claimedStatus copy reference now)) world := by
        intro now world served
        refine ⟨nofun,nofun,fun _ => ⟨copy,served,rfl,copied.handleless open_ native none_,unasked⟩,fun _ => ?_⟩
        refine ⟨fun _ => ⟨by rintro ⟨⟩,by rintro ⟨⟩⟩,fun _ => ?_⟩
        rintro (⟨failed,_⟩ | ⟨cancelled,_⟩)
        · exact nomatch failed
        · exact nomatch cancelled
      refine .afterQuery fun seen now steps _ _ => .afterSubmit
        (fun later more _ => needs now later (more (steps served))) fun later _ after more sound executed moved => ?_
      have still : copy ∈ after.served := moved (more (steps served))
      cases launch with
      | custodyRefused => exact (kept_failure (by decide)).keeping still
      | inputInterrupted => exact (kept_failure (by decide)).keeping still
      | started =>
        have claimed : Claimed after := by
          simp only [execute,bind_ok,require_ok,ensure_ok] at executed
          obtain ⟨o,there,_,_,executed⟩ := executed
          cases executed
          exact claimed_serve.mpr (.inl (by simp [nativeHandle,Object.patched,overlay,claimedStatus]))
        exact fun final last _ => ⟨⟨native,claimed.later last⟩,fun _ _ _ _ => True.intro,fun _ => True.intro⟩

theorem keeping_reconcileNative (native : route spec.action = .native)
    (unasked : nativeHandle copy = none → copy.cancelRequested = false)
    (served : copy ∈ world.served) : Keeping spec (reconcileNative copy findings) world := by
  rw [reconcileNative]
  split
  · exact kept_invalid.keeping served
  · cases handle : nativeHandle copy with
    | some reference => exact (kept_followNative copied open_ native handle _ _).keeping served
    | none => exact keeping_openNative copied open_ native handle (unasked handle) _ served

theorem keeping_reconcileOpen (unasked : copy.cancelRequested = false) (served : copy ∈ world.served) :
    Keeping spec (reconcileOpen copy findings) world := by
  rw [reconcileOpen]
  split
  · exact (kept_failure (by decide)).keeping served
  split
  · exact kept_invalid.keeping served
  split
  · exact True.intro
  split
  · rename_i live
    exact keeping_reconcileNative copied open_ (copied.kind ▸ live.1) (fun _ => unasked) served
  split
  · exact (kept_failure (by decide)).keeping served
  split
  · rename_i error details _
    have other : error.code ≠ "action_not_started" := by cases error <;> decide
    have kept : Kept spec copy (do
        let now ← clock
        patchActionStatus copy { emptyStatus with
          phase := .failed
          observedGeneration := copy.generation
          completedAtUnix := some now
          error := some (.object (("code",.str error.code) :: details)) }) := by
      simp only [clock,keeps_bind,keeps_query]
      exact fun _ _ _ _ => kept_patch (allowed_failed rfl rfl rfl other)
    exact kept.keeping served
  · split
    · rename_i direct
      rw [copied.kind] at direct
      exact (kept_direct direct).keeping served
    · rename_i native
      exact keeping_reconcileNative copied open_ (copied.kind ▸ native) (fun _ => unasked) served
    · rename_i job
      exact (kept_job copied open_ (copied.kind ▸ job)).keeping served
end

variable [Wire]

theorem keeping_reconcileAction (sound : Sound spec world) (served : copy ∈ world.served) :
    Keeping spec (reconcileAction copy findings) world := by
  have copied := sound.copied served
  rw [reconcileAction]
  split
  · rename_i owned
    exact (kept_direct (copied.kind ▸ route_owned owned)).keeping served
  split
  · split
    · exact True.intro
    · have kept : Kept spec copy (expireFinishedAction copy) := keeps_expireFinished fun _ _ _ => trivial
      exact kept.keeping served
  · rename_i open_
    have open_ : isTerminal copy.status = false := by simpa using open_
    split
    · rename_i asked
      split
      · rename_i live
        exact keeping_reconcileNative copied open_ (copied.kind ▸ live.1) (fun none_ => absurd none_ live.2) served
      · rename_i other
        refine (kept_cancellation copied open_ asked fun native => ?_).keeping served
        by_contra handle
        exact other ⟨copied.kind ▸ native,handle⟩
    · rename_i unasked
      have unasked : copy.cancelRequested = false := by simpa using unasked
      refine .afterQuery fun seen now steps _ _ => ?_
      have still := steps served
      split
      · rename_i passed
        have unstarted : actionExecutionStarted copy.status = false := by
          simp only [startDeadlinePassed,Bool.and_eq_true,Bool.not_eq_true'] at passed
          exact passed.1.2
        refine (kept_expire copied open_ unstarted unasked).then (fun ended world still => ?_) still
        cases ended with
        | true => exact True.intro
        | false => exact keeping_reconcileOpen copied open_ unasked still
      · exact keeping_reconcileOpen copied open_ unasked still
end

end Proofstorm.Unstarted
