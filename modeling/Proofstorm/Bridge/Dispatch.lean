import Proofstorm.Bridge.Claims
import Proofstorm.Deeds

/-!
What a pass and a check have done before each of their requests. A pass creates a
child once, after its own claim was fresh, for a call that the grant of its parent
permits; and it claims after it has read the cell at the revision of its parent. A
check admits a child at the moment of a poll that shows its call.
-/
namespace Proofstorm.Bridge
open Proofstorm.Interleaving (Call Deed Fallible query submit settle attempt)

abbrev Deeds := List (Deed World Statement Statement.Answer)

/-- What a pass or a check did since: it created nothing. -/
structure Extends (deeds now : Deeds) : Prop where
  earlier : ∀ deed ∈ deeds, deed ∈ now
  created : ∀ key child answer, Deed.did (.create key child) answer ∈ now → Deed.did (.create key child) answer ∈ deeds

theorem Extends.refl (deeds : Deeds) : Extends deeds deeds := ⟨fun _ => id,fun _ _ _ => id⟩

theorem Extends.trans {a b c : Deeds} (first : Extends a b) (second : Extends b c) : Extends a c :=
  ⟨fun deed there => second.earlier deed (first.earlier deed there),
    fun key child answer there => first.created key child answer (second.created key child answer there)⟩

theorem Extends.step {deeds : Deeds} {deed : Deed World Statement Statement.Answer}
    (other : ∀ key child answer, deed ≠ .did (.create key child) answer) : Extends deeds (deed :: deeds) := by
  refine ⟨fun _ => List.mem_cons_of_mem _,fun key child answer there => ?_⟩
  rcases List.mem_cons.mp there with same | there
  · exact absurd same.symm (other key child answer)
  · exact there

theorem Extends.read {deeds now : Deeds} (extends_ : Extends deeds now) (w : World) : Extends deeds (.read w :: now) :=
  extends_.trans (.step fun _ _ _ same => nomatch same)

theorem Extends.failed {deeds now : Deeds} (extends_ : Extends deeds now) (statement : Statement) :
    Extends deeds (.failed statement :: now) :=
  extends_.trans (.step fun _ _ _ same => nomatch same)

theorem Extends.bridge {deeds now : Deeds} (extends_ : Extends deeds now) (place : Place) (launch : Launch)
    (request : BridgeRequest) (answer : Except String Reply) :
    Extends deeds (.did (.bridge place launch request) answer :: now) :=
  extends_.trans (.step fun _ _ _ same => nomatch same)

theorem Extends.cancel {deeds now : Deeds} (extends_ : Extends deeds now) (name : String) (answer : Unit) :
    Extends deeds (.did (.cancel name) answer :: now) :=
  extends_.trans (.step fun _ _ _ same => nomatch same)

section
variable {allowed : Deeds → Statement → Prop} {deeds : Deeds}

theorem findPod_grounded (parent : Action) (reference : NativeExecution) (component : String) :
    (findPod parent reference component).run.Grounded allowed (fun now _ => Extends deeds now) deeds := by
  unfold findPod
  have here := Extends.refl deeds
  refine .afterQuery (fun w _ => here.read w) fun w original _ => ?_
  split
  · exact here.read w
  · exact .afterQuery (fun now _ => (here.read w).read now) fun now _ _ => (here.read w).read now

theorem cancelChildren_grounded (may : ∀ now name, allowed now (.cancel name)) (children : List Action) :
    (cancelChildren children).run.Grounded allowed (fun now _ => Extends deeds now) deeds := by
  induction children generalizing deeds with
  | nil => exact .refl deeds
  | cons child rest ih =>
    unfold cancelChildren
    split
    · exact ih
    · have here := Extends.refl deeds
      refine .afterSubmit (fun _ => here.failed _) (may deeds _) fun answer => ?_
      refine .andThen ih (fun now _ later => ?_) fun now _ later => ?_
      · exact (here.cancel child.name answer).trans later
      · exact (here.cancel child.name answer).trans later
end

/-- The statement of an exchange. -/
def asked (parent : Action) (component : String) (start : TaskStart) (ask : Ask) : Statement :=
  .bridge (parent.spec.instanceKey,component) ⟨false,false⟩ (.ask start.taskId parent.spec.operationId ask)

/-- After an exchange: it created nothing, and its last step was the request that the reply answers. -/
structure Answered (parent : Action) (start : TaskStart) (ask : Ask) (deeds now : Deeds)
    (outcome : Except String Exchanged) : Prop where
  extends_ : Extends deeds now
  replied : ∀ exchanged, outcome = .ok exchanged → ∃ component rest, taskComponent parent = some component ∧
    now = .did (asked parent component start ask) (.ok exchanged.reply) :: rest

theorem Answered.failed {parent : Action} {start : TaskStart} {ask : Ask} {deeds now : Deeds}
    (extends_ : Extends deeds now) (error : String) : Answered parent start ask deeds now (.error error) :=
  ⟨extends_,fun _ same => nomatch same⟩

section
variable {allowed : Deeds → Statement → Prop} {deeds : Deeds}

theorem exchange_grounded (around : Surroundings) (parent : Action) (start : TaskStart) (ask : Ask)
    (may : ∀ now component, Extends deeds now → taskComponent parent = some component →
      allowed now (asked parent component start ask)) :
    (exchange around parent start ask).run.Grounded allowed (Answered parent start ask deeds) deeds := by
  unfold exchange
  refine .afterSettle (Answered.failed (.refl _)) fun reference _ => ?_
  refine .afterSettle (Answered.failed (.refl _)) fun component found => ?_
  have found : taskComponent parent = some component := require_ok.mp found
  refine .andThen (findPod_grounded parent reference component) (fun now error extends_ => .failed extends_ error) ?_
  intro now samePod extends_
  refine .afterSubmit (Answered.failed (extends_.failed _)) (may now component extends_ found) fun answer => ?_
  have later := extends_.bridge (parent.spec.instanceKey,component) ⟨false,false⟩
    (.ask start.taskId parent.spec.operationId ask) answer
  refine .afterSettle (Answered.failed later) fun _ _ => ?_
  refine .afterSettle (Answered.failed later) fun reply replied => ?_
  refine ⟨later,fun exchanged same => ⟨component,now,found,?_⟩⟩
  obtain rfl := Except.ok.inj same
  rw [show answer = .ok reply from mapError_ok.mp replied]
  rfl

end

/-! ### What a pass has done -/

/-- The pass has read the cell of its parent, and it was at the revision of the parent. -/
def ReadCurrent (parent : Action) (deeds : Deeds) : Prop :=
  ∃ w cell, Deed.read w ∈ deeds ∧ cell ∈ w.cluster.cells ∧ sameInstance parent cell = true ∧
    currentRevision parent cell = true

theorem ReadCurrent.later {parent : Action} {deeds now : Deeds} (current : ReadCurrent parent deeds)
    (extends_ : Extends deeds now) : ReadCurrent parent now := by
  obtain ⟨w,cell,read,there⟩ := current
  exact ⟨w,cell,extends_.earlier _ read,there⟩

/-- A claim of the key was fresh. -/
def ClaimedFresh (key : CallKey) (owner : String) (deeds : Deeds) : Prop :=
  ∃ launch digest,
    Deed.did (.bridge key.1 launch (.ask key.2.1 owner (.claim key.2.2))) (.ok (.claim true digest)) ∈ deeds

def Created (deeds : Deeds) : Prop := ∃ key child answer, Deed.did (.create key child) answer ∈ deeds

section
variable [Wire] {allowed : Deeds → Statement → Prop} {deeds : Deeds}

/-! ### Passes -/

/-- The child is that of a call of the task that the parent started, and its grant permits the call. -/
def Dispatches (around : Surroundings) (parent : Action) (key : CallKey) (child : Action) : Prop :=
  ∃ start scope call component, requestedStart parent = some start ∧ start.control = some scope ∧
    scope.permits call = .ok () ∧ taskComponent parent = some component ∧
    key = ((parent.spec.instanceKey,component),start.taskId,call.callId) ∧ child = childActionAt parent call around.now

/-- What a pass has done before a statement. -/
def AllowsPass (around : Surroundings) (parent : Action) (deeds : Deeds) : Statement → Prop
  | .create key child => Dispatches around parent key child ∧ ClaimedFresh key parent.spec.operationId deeds ∧
      ¬ Created deeds
  | .bridge _ _ (.ask _ _ (.claim _)) => ReadCurrent parent deeds
  | _ => True

variable {around : Surroundings}

theorem allowsPass_ask {parent : Action} {start : TaskStart} {ask : Ask}
    (other : ∀ callId, ask ≠ .claim callId) (now : Deeds) (component : String) :
    AllowsPass around parent now (asked parent component start ask) := by
  cases ask with
  | claim callId => exact absurd rfl (other callId)
  | _ => trivial

theorem permitted_ok {start : TaskStart} {call : ControlCall} {callCount : Option Nat}
    (holds : permitted start call callCount = true) :
    ∃ scope, start.control = some scope ∧ scope.permits call = .ok () := by
  simp only [permitted,Bool.and_eq_true] at holds
  obtain ⟨granted,_⟩ := holds
  cases control : start.control with
  | none => simp [control] at granted
  | some scope =>
    simp only [control,Option.any_some] at granted
    cases permits : scope.permits call with
    | ok value => exact ⟨scope,rfl,permits⟩
    | error error => simp [permits,Except.isOk,Except.toBool] at granted

theorem dispatch_grounded {parent : Action} {start : TaskStart} {active : Bool}
    (record : Record) (callCount : Option Nat) (requested : requestedStart parent = some start)
    (current : active = true → ReadCurrent parent deeds) (created : ¬ Created deeds) :
    (dispatch around parent start active record callCount).run.Grounded (AllowsPass around parent)
      (fun _ _ => True) deeds := by
  unfold dispatch
  refine .afterSettle (fun _ => trivial) fun _ holds => ?_
  obtain ⟨scope,control,permits⟩ := permitted_ok (ensure_ok.mp holds)
  refine .afterQuery (fun _ _ => trivial) fun w found _ => ?_
  cases found with
  | some child =>
    refine .afterSettle (fun _ => trivial) fun _ _ => ?_
    split
    · refine .andThen (exchange_grounded around parent start _ fun now component _ _ => ?_) (fun _ _ _ => trivial) ?_
      · exact allowsPass_ask (by simp) now component
      · exact fun _ _ _ => trivial
    · trivial
  | none =>
    dsimp only
    split
    · refine .andThen (exchange_grounded around parent start _ fun now component _ _ => ?_) (fun _ _ _ => trivial) ?_
      · exact allowsPass_ask (by simp) now component
      · exact fun _ _ _ => trivial
    · rename_i going
      have read : ReadCurrent parent (.read w :: deeds) :=
        (current (by simpa using And.left (by simpa using going))).later ((Extends.refl deeds).read w)
      refine .andThen (exchange_grounded around parent start _ fun now component extends_ _ => ?_) (fun _ _ _ => trivial) ?_
      · exact read.later extends_
      · intro now claim answered
        obtain ⟨component,rest,there,rfl⟩ := answered.replied claim rfl
        split
        · rename_i fresh
          refine .afterSettle (fun _ => trivial) fun found same => ?_
          obtain rfl : component = found := Option.some.inj (there.symm.trans (require_ok.mp same))
          refine .afterSubmit (fun _ => trivial) ⟨?_,?_,?_⟩ fun _ => trivial
          · exact ⟨start,scope,record.call,component,requested,control,permits,there,rfl,rfl⟩
          · exact ⟨⟨false,false⟩,_,by rw [← fresh]; exact List.mem_cons_self⟩
          · rintro ⟨key,child,answer,did⟩
            have earlier := answered.extends_.created key child answer did
            exact created ⟨key,child,answer,by simpa using earlier⟩
        · trivial

/-- A request that is no claim. -/
theorem ask_grounded (around : Surroundings) (parent : Action) (start : TaskStart) {ask : Ask}
    (other : ∀ callId, ask ≠ .claim callId) :
    (exchange around parent start ask).run.Grounded (AllowsPass around parent) (fun now _ => Extends deeds now) deeds :=
  (exchange_grounded around parent start ask fun now component _ _ => allowsPass_ask other now component).mono
    fun _ _ answered => answered.extends_

theorem closeStale_grounded (around : Surroundings) (parent : Action) (start : TaskStart) (stale : Bool) :
    (closeStale around parent start stale).run.Grounded (AllowsPass around parent) (fun now _ => Extends deeds now) deeds := by
  unfold closeStale
  split
  · exact .afterAttempt (ask_grounded around parent start (by simp)) fun now _ extends_ => extends_
  · exact .refl deeds

theorem cancelInactive_grounded (around : Surroundings) (parent : Action) (children : List Action) (active : Bool) :
    (cancelInactive children active).run.Grounded (AllowsPass around parent) (fun now _ => Extends deeds now) deeds := by
  unfold cancelInactive
  split
  · exact .andThen (cancelChildren_grounded (fun _ _ => trivial) children) (fun _ _ extends_ => extends_)
      fun now _ extends_ => extends_
  · exact .refl deeds

theorem reportFaults_grounded (around : Surroundings) (parent : Action) (start : TaskStart) (valid : Bool)
    (pendingFaults : Nat) : (reportFaults around parent start valid pendingFaults).run.Grounded
      (AllowsPass around parent) (fun now _ => Extends deeds now) deeds := by
  unfold reportFaults
  split
  · exact .andThen (ask_grounded around parent start (by simp)) (fun _ _ extends_ => extends_)
      fun now _ extends_ => extends_
  · exact .refl deeds

theorem reconcileStart_grounded {parent : Action} {start : TaskStart} (children : List Action)
    {cell : Option Cell} (requested : requestedStart parent = some start)
    (current : cell.any (currentRevision parent) = true → ReadCurrent parent deeds) (created : ¬ Created deeds) :
    (reconcileStart around parent start children cell).run.Grounded (AllowsPass around parent)
      (fun _ _ => True) deeds := by
  unfold reconcileStart
  refine .afterAttempt (ask_grounded around parent start (by simp)) fun polled poll first => ?_
  refine .andThen (closeStale_grounded ..) (fun _ _ _ => trivial) fun closed _ second => ?_
  refine .andThen (cancelInactive_grounded ..) (fun _ _ _ => trivial) fun cancelled _ third => ?_
  refine .andThen (reportFaults_grounded ..) (fun _ _ _ => trivial) fun now _ fourth => ?_
  have extends_ : Extends deeds now := ((first.trans second).trans third).trans fourth
  split
  · trivial
  · split
    · trivial
    · split
      · trivial
      · refine dispatch_grounded _ _ requested (fun active => ?_) fun ⟨key,child,answer,did⟩ => ?_
        · simp only [Bool.and_eq_true] at active
          exact (current active.2).later extends_
        · exact created ⟨key,child,answer,extends_.created key child answer did⟩

theorem reconcile_grounded (around : Surroundings) (parent : Action) :
    (reconcile around parent).run.Grounded (AllowsPass around parent) (fun _ _ => True) [] := by
  unfold reconcile
  split
  · trivial
  · refine .afterQuery (fun _ _ => trivial) fun w children _ => ?_
    refine .afterQuery (fun _ _ => trivial) fun v cell read => ?_
    cases instance_ : cell.filter fun cell => sameInstance parent cell with
    | none =>
      refine .andThen (cancelChildren_grounded (fun _ _ => trivial) children) (fun _ _ _ => trivial) ?_
      exact fun _ _ _ => trivial
    | some own =>
      cases requested : requestedStart parent with
      | none =>
        refine .andThen (cancelChildren_grounded (fun _ _ => trivial) children) (fun _ _ _ => trivial) ?_
        exact fun _ _ _ => trivial
      | some start =>
        obtain ⟨rfl,same⟩ := Option.filter_eq_some_iff.mp instance_
        refine reconcileStart_grounded children requested (fun current => ?_) ?_
        · refine ⟨v,own,List.mem_cons_self,?_,same,current⟩
          exact List.mem_of_find?_eq_some (Except.ok.inj read)
        · rintro ⟨_,_,_,did⟩
          simp at did
end

end Proofstorm.Bridge
