import Proofstorm.Bridge.Dispatch

/-!
The runs of a cluster and its workspaces, from empty workspaces. A call of a task
is dispatched at most once, and only by a pass whose own claim was fresh; a record
is never rebound and its first receipt stays; and once there is a receipt no check
admits a child of the call (`dispatched_once`).
-/
namespace Proofstorm.Bridge
open Relation (ReflTransGen)
open Proofstorm.Interleaving (Call Deed Known Linked Throughout Reachable Committed throughout_iff query submit settle attempt)

abbrev Event := Interleaving.Event Request World Statement (Except String Response)
abbrev Config := Interleaving.Config Request World Statement String Statement.Answer (Except String Response)

/-- Workspaces without tasks. -/
def emptyWorld (cluster : Cluster) : World := ⟨fun _ => ⟨.empty,[]⟩,cluster⟩

section
variable [Wire]

/-- The record that an action is a child for, as the cluster has its parent. -/
def childKey (w : World) (child : Action) : Option CallKey := do
  let parent ← (child.annotations.get parentAnnotationKey).bind w.cluster.find
  let start ← requestedStart parent
  let component ← taskComponent parent
  let call ← (child.annotations.get callAnnotationKey).bind Wire.parseCall
  pure ((parent.spec.instanceKey,component),start.taskId,call.callId)

/-- What a check that admits a child has seen last: a poll in which the call of the
    child was pending, claimed, and its task running. -/
def SawClaimed (child : Action) (deeds : Deeds) : Prop :=
  ∃ parent start component call state record callCount rest w,
    deeds = .did (asked parent component start .poll) (.ok (.poll state (some record) callCount)) :: rest ∧
      Deed.read w ∈ rest ∧ childKey w child = some ((parent.spec.instanceKey,component),start.taskId,call.callId) ∧
      (child.annotations.get callAnnotationKey).bind Wire.parseCall = some call ∧ state.phase = .running ∧
      record.digest = digestJson (.call call) ∧ record.claimed = true

theorem controlledStart_requested {parent : Action} {cell : Cell} {start : TaskStart}
    (controlled : controlledStart parent cell = some start) : requestedStart parent = some start := by
  simp only [controlledStart,Option.bind_eq_bind,Option.bind_eq_some_iff] at controlled
  obtain ⟨requested,found,rest⟩ := controlled
  have same : requested = start := by
    split at rest
    · split at rest
      · exact nomatch rest
      · obtain ⟨_,_,rest⟩ := Option.bind_eq_some_iff.mp rest
        split at rest
        · exact nomatch rest
        · exact Option.some.inj rest
    · exact nomatch rest
  exact same ▸ found

/-- A statement that creates nothing. -/
def Quiet (_ : Deeds) (statement : Statement) : Prop := ∀ key child, statement ≠ .create key child

omit [Wire] in
theorem quiet_asked (now : Deeds) (parent : Action) (component : String) (start : TaskStart) (ask : Ask) :
    Quiet now (asked parent component start ask) := by
  intro key child same
  exact Statement.noConfusion same

/-- What is promised of the outcome of a check. -/
def Admits (child : Action) (now : Deeds) (outcome : Except String Bool) : Prop :=
  outcome = .ok true → SawClaimed child now

theorem Admits.refused (child : Action) (now : Deeds) : Admits child now (.ok false) := by
  intro same
  exact absurd (Except.ok.inj same) (by decide)

theorem Admits.failed (child : Action) (now : Deeds) (error : String) : Admits child now (.error error) := by
  intro same
  exact nomatch same

variable {w a b : World} {key : CallKey} {statement : Statement} {event : Event} {config : Config}

/-- A poll by which a check admits a child. -/
theorem admits_poll {parent : Action} {start : TaskStart} {call : ControlCall} {component : String} {child : Action}
    {exchanged : Exchanged} {rest : Deeds} (seen : Deed.read w ∈ rest)
    (child_ : childKey w child = some ((parent.spec.instanceKey,component),start.taskId,call.callId))
    (parsed : (child.annotations.get callAnnotationKey).bind Wire.parseCall = some call)
    (running : isRunning exchanged.polled = true)
    (shown : (exchanged.polled.pending.any fun record =>
      record.digest = digestJson (.call call) && record.claimed) = true) :
    SawClaimed child (.did (asked parent component start .poll) (.ok exchanged.reply) :: rest) := by
  obtain ⟨reply,replaced⟩ := exchanged
  cases reply with
  | poll state pending callCount =>
    cases pending with
    | none => exact nomatch shown
    | some record =>
      simp only [Exchanged.polled,Option.any_some,Bool.and_eq_true,decide_eq_true_eq,isRunning] at running shown
      exact ⟨parent,start,component,call,state,record,callCount,rest,w,rfl,seen,child_,parsed,running,shown⟩
  | _ => exact nomatch shown

theorem admitChild_grounded (around : Surroundings) (child : Action) (cell : Cell) :
    (admitChild around child cell).run.Grounded Quiet (Admits child) [] := by
  unfold admitChild
  cases named : child.annotations.get parentAnnotationKey with
  | none => exact .refused child _
  | some parentName =>
    refine .afterQuery (fun _ _ => .failed child _ _) fun w found read => ?_
    cases found with
    | none => exact .refused child _
    | some parent =>
      have there : w.cluster.find parentName = some parent := Except.ok.inj read
      dsimp only
      split
      · rename_i start call controlled parsed
        split
        · exact .refused child _
        · refine .afterAttempt (exchange_grounded around parent start .poll fun now component _ _ =>
            quiet_asked now parent component start .poll) fun now poll answered => ?_
          cases poll with
          | error error => exact .refused child _
          | ok exchanged =>
            intro admitted
            obtain ⟨component,rest,placed,rfl⟩ := answered.replied exchanged rfl
            have admitted := Except.ok.inj admitted
            simp only [Bool.and_eq_true] at admitted
            obtain ⟨⟨_,running⟩,shown⟩ := admitted
            refine admits_poll (w := w) ?_ ?_ parsed running shown
            · have seen := answered.extends_.earlier _ List.mem_cons_self
              rcases List.mem_cons.mp seen with same | later
              · exact nomatch same
              · exact later
            · simp [childKey,named,there,controlledStart_requested controlled,placed,parsed]
      · exact .refused child _

/-! ### All requests -/

def Allows : Request → Deeds → Statement → Prop
  | .pass _ around parent => AllowsPass around parent
  | _ => Quiet

def Promises : Request → Deeds → Except String Response → Prop
  | .admission _ child _, deeds, reply => reply = .ok (.admitted true) → SawClaimed child deeds
  | _, _, _ => True

theorem code_grounded (request : Request) :
    (code request).Grounded (Allows request) (Promises request) [] := by
  cases request with
  | pass number around parent =>
    exact .andThen (reconcile_grounded around parent) (fun _ _ _ => trivial) fun _ _ _ => trivial
  | admission around child cell =>
    refine .andThen (admitChild_grounded around child cell) (fun _ _ _ same => nomatch same) ?_
    intro now admitted saw same
    exact saw (congrArg Except.ok (Response.admitted.inj (Except.ok.inj same)))
  | bridge place launch request => exact .afterSubmit (fun _ => trivial) (fun _ _ same => nomatch same) fun _ => trivial
  | happens place event => exact .afterSubmit (fun _ => trivial) (fun _ _ same => nomatch same) fun _ => trivial
  | elsewhere change => exact .afterSubmit (fun _ => trivial) (fun _ _ same => nomatch same) fun _ => trivial

/-! ### Fresh claims and creations -/

/-- Whether an answer is that of a fresh claim of the key. -/
def grantsKey (key : CallKey) : (statement : Statement) → statement.Answer → Bool
  | .bridge place _ (.ask taskId _ (.claim callId)), answer =>
    (place,taskId,callId) = key && match answer with
      | .ok (.claim fresh _) => fresh
      | _ => false
  | _, _ => false

def usesKey (key : CallKey) : Statement → Bool
  | .create own _ => own = key
  | _ => false

omit [Wire] in
theorem grantsKey_claim {answer : statement.Answer}
    (granted : grantsKey key statement answer = true) :
    ∃ launch owner digest, statement = .bridge key.1 launch (.ask key.2.1 owner (.claim key.2.2)) ∧
      HEq answer (Except.ok (.claim true digest) : Except String Reply) := by
  unfold grantsKey at granted
  split at granted
  · rename_i place launch taskId owner callId answer
    simp only [Bool.and_eq_true,decide_eq_true_eq] at granted
    obtain ⟨rfl,fresh⟩ := granted
    split at fresh
    · rename_i digest
      subst fresh
      exact ⟨launch,owner,digest,rfl,HEq.rfl⟩
    · exact nomatch fresh
  · exact nomatch granted

/-- A pass uses a claim that it has not used. -/
theorem allows_granted {request : Request} {now : Deeds}
    (allowed : Allows request now statement) :
    Interleaving.Granted (grantsKey key) (usesKey key) now statement := by
  intro uses
  cases statement with
  | create own child =>
    obtain rfl : own = key := by simpa [usesKey] using uses
    cases request with
    | pass number around parent =>
      obtain ⟨_,⟨launch,digest,claimed⟩,created⟩ := allowed
      have none_ : now.countP (Deed.used (usesKey own)) = 0 := by
        refine List.countP_eq_zero.mpr fun deed member used => ?_
        cases deed with
        | did statement answer =>
          cases statement with
          | create other child => exact created ⟨other,child,answer,member⟩
          | _ => cases used
        | _ => cases used
      rw [none_]
      exact List.countP_pos_iff.mpr ⟨_,claimed,by simp [Deed.granted,grantsKey]⟩
    | _ => exact absurd rfl (allowed own child)
  | _ => cases uses

/-! ### Runs -/

/-- The configurations of the runs from empty workspaces. -/
def Reached (config : Config) : Prop := ∃ cluster, Reachable execute "unavailable" code (emptyWorld cluster) config

/-- The record of the key is claimed. -/
def World.Claimed (w : World) (key : CallKey) : Prop := ∃ record, w.record key = some record ∧ record.claimed = true

theorem World.Moves.claimed (moves : a.Moves b) (claimed : a.Claimed key) : b.Claimed key := by
  obtain ⟨record,found,done⟩ := claimed
  obtain ⟨later,there,kept⟩ := moves.record found
  exact ⟨later,there,kept.claimed done⟩

theorem World.Moves.refl (w : World) : w.Moves w := fun _ => .refl _

theorem committed_moves (committed : Committed execute event) : event.before.Moves event.after := by
  unfold Committed at committed
  cases did : event.did with
  | none =>
    simp only [did] at committed
    exact committed ▸ .refl _
  | some statement =>
    simp only [did] at committed
    obtain ⟨answer,executed⟩ := committed
    exact execute_moves executed

/-- The claim of a key was fresh in the event. -/
def FreshClaim (key : CallKey) (event : Event) : Prop :=
  ∃ launch owner digest, event.did = some (.bridge key.1 launch (.ask key.2.1 owner (.claim key.2.2))) ∧
    ((event.before.managers key.1).bridge launch (.ask key.2.1 owner (.claim key.2.2))).2 = .ok (.claim true digest) ∧
    event.after = event.before.manage key.1
      ((event.before.managers key.1).bridge launch (.ask key.2.1 owner (.claim key.2.2))).1

theorem granted_fresh (committed : Committed execute event)
    (granted : event.granted (grantsKey key) execute = true) : FreshClaim key event := by
  unfold Interleaving.Event.granted at granted
  cases did : event.did with
  | none => simp [did] at granted
  | some statement =>
    simp only [did] at granted
    cases executed : execute statement event.before with
    | error error => simp [executed] at granted
    | ok outcome =>
      obtain ⟨answer,after⟩ := outcome
      simp only [executed] at granted
      obtain ⟨launch,owner,digest,rfl,same⟩ := grantsKey_claim granted
      obtain rfl := eq_of_heq same
      simp only [Committed,did] at committed
      obtain ⟨_,committed⟩ := committed
      obtain ⟨replied,_⟩ := Prod.mk.inj (Except.ok.inj executed)
      obtain ⟨_,manages⟩ := Prod.mk.inj (Except.ok.inj committed)
      exact ⟨launch,owner,digest,did,replied,manages.symm⟩

/-- The fresh claims of a key. -/
def freshClaims (key : CallKey) (log : List Event) : Nat :=
  log.countP (Interleaving.Event.granted (grantsKey key) execute)

/-- No claim of the key was fresh, or one was and the record is claimed. -/
def ClaimedOnce (key : CallKey) (log : List Event) (w : World) : Prop :=
  freshClaims key log = 0 ∨ (freshClaims key log = 1 ∧ w.Claimed key)

theorem ClaimedOnce.cons {key : CallKey} {older : List Event} {event : Event}
    (before : ClaimedOnce key older event.before) (committed : Committed execute event) :
    ClaimedOnce key (event :: older) event.after := by
  rw [ClaimedOnce,freshClaims,List.countP_cons]
  by_cases granted : event.granted (grantsKey key) execute = true
  · obtain ⟨launch,owner,digest,_,replied,after⟩ := granted_fresh committed granted
    obtain ⟨_,⟨record,found,unclaimed,_⟩,claimed⟩ := claim_fresh replied
    rw [if_pos granted]
    rcases before with none_ | ⟨_,other,there,done⟩
    · exact .inr ⟨by rw [freshClaims] at none_; omega,after ▸ claimed⟩
    · obtain rfl : record = other := Option.some.inj (found.symm.trans there)
      exact absurd done (by simp [unclaimed])
  · rw [if_neg granted]
    exact before.imp id fun held => ⟨held.1,(committed_moves committed).claimed held.2⟩

/-- A claim of a key is fresh once. -/
theorem fresh_once (reached : Reached config) (key : CallKey) : freshClaims key config.log ≤ 1 := by
  obtain ⟨cluster,reached⟩ := reached
  have first : ClaimedOnce key [] (emptyWorld cluster) := .inl rfl
  have step : ∀ older event, ClaimedOnce key older event.before → Committed execute event →
      ClaimedOnce key (event :: older) event.after ∧ True := fun _ _ before committed => ⟨before.cons committed,trivial⟩
  rcases (reached.linked.induction reached.committed first step).1 with none_ | ⟨one,_⟩
  · omega
  · omega

/-- The key of the child that an event created. -/
def createdKey (event : Event) : Option CallKey :=
  match event.did with
  | some (.create key _) => some key
  | _ => none

theorem created_once (reached : Reached config) : (config.log.filterMap createdKey).Nodup := by
  refine List.nodup_iff_count_le_one.mpr fun key => ?_
  have once := fresh_once reached key
  obtain ⟨cluster,reached⟩ := reached
  have used : config.log.countP (Interleaving.Event.used (usesKey key)) ≤ freshClaims key config.log :=
    reached.used_le fun request => ((code_grounded request).allows fun _ _ => allows_granted).mono fun _ _ _ => trivial
  have same : ∀ log : List Event, (log.filterMap createdKey).count key =
      log.countP (Interleaving.Event.used (usesKey key)) := by
    intro log
    induction log with
    | nil => rfl
    | cons event rest ih =>
      rw [List.filterMap_cons,List.countP_cons,← ih]
      unfold createdKey Interleaving.Event.used
      cases event.did with
      | none => rfl
      | some statement =>
        cases statement with
        | create own child =>
          by_cases equal : own = key <;> simp [usesKey,equal]
        | _ => rfl
  rw [same]
  exact Nat.le_trans used once

/-! ### What an event that creates or admits comes after -/

/-- The pass that created the child claimed its call itself, and the claim was fresh.
    The task was running then, and before it the pass had read the cell at the
    revision of the parent. -/
def Dispatched (older : List Event) (event : Event) : Prop :=
  ∀ key child, event.did = some (.create key child) → ∃ number around parent,
    event.request = .pass number around parent ∧ Dispatches around parent key child ∧
      ∃ newer claim before, older = newer ++ claim :: before ∧ claim.request = event.request ∧
        claim.since = event.since ∧ FreshClaim key claim ∧ claim.before.Running key ∧
        ∃ read ∈ before, read.request = event.request ∧ read.since = event.since ∧
          ∃ cell ∈ read.before.cluster.cells, sameInstance parent cell = true ∧ currentRevision parent cell = true

/-- What the run knows of the deeds before an event. -/
def Grounds (older : List Event) (event : Event) : Prop :=
  ∃ deeds : Deeds, Known execute older event.request event.since deeds ∧
    (∀ statement, event.did = some statement → Allows event.request deeds statement) ∧
    ∀ reply, event.reply = some reply → (event.did = none ∧ Promises event.request [] reply) ∨
      ∃ deed : Deed World Statement Statement.Answer, deed.Of execute event ∧
        Promises event.request (deed :: deeds) reply

theorem dispatched (reached : Reached config) : Throughout Dispatched config.log := by
  obtain ⟨cluster,reached⟩ := reached
  have log : Throughout Grounds config.log := (reached.grounded Allows Promises code_grounded).2
  refine throughout_iff.mpr fun newest event older split key child did => ?_
  obtain ⟨deeds,known,allowed,_⟩ := throughout_iff.mp log newest event older split
  have allowed := allowed _ did
  cases request : event.request with
  | pass number around parent =>
    rw [request] at allowed
    obtain ⟨dispatches,⟨launch,digest,claimed⟩,_⟩ := allowed
    obtain ⟨claim,there,same,since,claims,executed⟩ := known _ claimed
    obtain ⟨newer,before,rfl⟩ := List.append_of_mem there
    obtain ⟨earlier,knew,may,_⟩ := throughout_iff.mp log (newest ++ event :: newer) claim before (by simp [split])
    have may := may _ claims
    rw [same,request] at may
    obtain ⟨w,cell,read,cells,current⟩ := may
    obtain ⟨reading,among,sameRequest,sameSince,_,rfl⟩ := knew _ read
    obtain ⟨replied,manages⟩ := Prod.mk.inj (Except.ok.inj executed)
    refine ⟨number,around,parent,rfl,dispatches,newer,claim,before,rfl,same.trans request,since,?_,?_,?_⟩
    · exact ⟨launch,_,digest,claims,replied,manages.symm⟩
    · exact (claim_fresh replied).1
    · exact ⟨reading,among,sameRequest.trans (same.trans request),sameSince.trans since,cell,cells,current⟩
  | _ =>
    rw [request] at allowed
    exact absurd rfl (allowed key child)

/-! ### What holds of the mailboxes -/

def World.Sound (w : World) : Prop := ∀ place, ∀ task ∈ (w.managers place).tasks, task.Sound

/-- The same, after a log. -/
def SoundAfter (_ : List Event) (w : World) : Prop := w.Sound

theorem sound (reached : Reached config) :
    config.state.Sound ∧ Throughout (fun _ event => event.before.Sound) config.log := by
  obtain ⟨cluster,reached⟩ := reached
  have first : SoundAfter [] (emptyWorld cluster) := fun _ task member => absurd member (Table.not_mem_empty task)
  have step : ∀ (older : List Event) (event : Event), SoundAfter older event.before → Committed execute event →
      SoundAfter (event :: older) event.after ∧ event.before.Sound := fun _ _ before committed =>
    ⟨fun place => (committed_moves committed place).sound (before place),before⟩
  exact reached.linked.induction reached.committed first step

theorem record_steps {record : Record} (steps : ReflTransGen World.Moves a b)
    (found : a.record key = some record) : ∃ later, b.record key = some later ∧ record.Later later := by
  induction steps with
  | refl => exact ⟨record,found,.refl record⟩
  | tail _ step ih =>
    obtain ⟨middle,there,later⟩ := ih
    obtain ⟨last,here,latest⟩ := step.record there
    exact ⟨last,here,later.trans latest⟩

/-- From the end of an event to a later state a record only moves on. -/
theorem record_stays {initial : World} {newer older : List Event}
    (linked : Linked initial (newer ++ event :: older) w) (committed : ∀ seen ∈ newer, Committed execute seen)
    {key : CallKey} {record : Record} (found : event.after.record key = some record) :
    ∃ later, w.record key = some later ∧ record.Later later :=
  record_steps (linked.across fun seen member => committed_moves (committed seen member)) found

/-! ### Checks -/

/-- The check saw the record of the key, claimed and without a receipt, in a task that runs. -/
def AdmittedFor (older : List Event) (event : Event) : Prop :=
  ∀ around child cell, event.request = .admission around child cell → event.reply = some (.ok (.admitted true)) →
    ∃ key call record, (∃ seen ∈ older, seen.request = event.request ∧ seen.since = event.since ∧
        childKey seen.before child = some key) ∧
      (child.annotations.get callAnnotationKey).bind Wire.parseCall = some call ∧ key.2.2 = call.callId ∧
      event.before.Running key ∧ event.before.record (key.1,key.2.1,record.call.callId) = some record ∧
      record.digest = digestJson (.call call) ∧ record.claimed = true ∧ record.receipt = none

theorem admitted (reached : Reached config) : Throughout AdmittedFor config.log := by
  obtain ⟨cluster,reached⟩ := reached
  have log : Throughout Grounds config.log := (reached.grounded Allows Promises code_grounded).2
  refine log.mono ?_
  rintro older event ⟨deeds,known,_,promised⟩ around child cell request replied
  rw [request] at promised
  have saw : ∃ deed : Deed World Statement Statement.Answer, deed.Of execute event ∧ SawClaimed child (deed :: deeds) := by
    rcases promised _ replied with ⟨_,promise⟩ | ⟨deed,done,promise⟩
    · obtain ⟨_,_,_,_,_,_,_,_,_,same,_⟩ := promise rfl
      exact nomatch same
    · exact ⟨deed,done,promise rfl⟩
  obtain ⟨deed,done,parent,start,component,call,state,record,callCount,rest,w,same,read,child_,parsed,running,digest,
    claimed⟩ := saw
  obtain ⟨rfl,rfl⟩ := List.cons.inj same
  obtain ⟨_,executed⟩ := done
  obtain ⟨seen,among,sameRequest,since,_,rfl⟩ := known _ read
  obtain ⟨polled,_⟩ := Prod.mk.inj (Except.ok.inj executed)
  obtain ⟨there,unanswered,task,found,observed⟩ := poll_pending polled
  refine ⟨_,call,record,⟨seen,among,sameRequest,since,child_⟩,parsed,rfl,?_,there,digest,claimed,unanswered⟩
  exact ⟨task,found,observed ▸ running⟩

/-- No record has the digest of a call that a check reads of its child, unless it is for this call. -/
def DistinctDigests (log : List Event) : Prop :=
  ∀ check ∈ log, ∀ around child cell call, check.request = .admission around child cell →
    (child.annotations.get callAnnotationKey).bind Wire.parseCall = some call → ∀ key record,
      check.before.record key = some record → digestJson (.call record.call) = digestJson (.call call) → record.call = call

/-- Once a record has a receipt no check admits a child for it. -/
theorem refused_after (reached : Reached config) (distinct : DistinctDigests config.log)
    {newer older : List Event} {event : Event} (split : config.log = newer ++ event :: older) {key : CallKey}
    {record : Record} (found : event.after.record key = some record) (answered : record.receipt.isSome = true)
    {check : Event} (later : check ∈ newer) {around : Surroundings} {child : Action} {cell : Cell}
    (request : check.request = .admission around child cell)
    (child_ : ∀ seen ∈ config.log, seen.request = check.request → seen.since = check.since →
      childKey seen.before child = some key) : check.reply ≠ some (.ok (.admitted true)) := by
  intro replied
  obtain ⟨newest,between,rfl⟩ := List.append_of_mem later
  have split : config.log = newest ++ check :: (between ++ event :: older) := by simp [split]
  have member : check ∈ config.log := by simp [split]
  obtain ⟨own,call,pending,⟨seen,among,sameRequest,since,named⟩,parsed,own_,_,shown,digest,_,unanswered⟩ :=
    throughout_iff.mp (admitted reached) newest check _ split around child cell request replied
  obtain rfl : own = key := by
    have named_ := child_ seen (split ▸ List.mem_append_right _ (List.mem_cons_of_mem _ among)) sameRequest since
    exact Option.some.inj (named.symm.trans named_)
  have digests := throughout_iff.mp (sound reached).2 newest check _ split
  obtain ⟨cluster,reached⟩ := reached
  obtain ⟨task,there,here⟩ := Option.bind_eq_some_iff.mp shown
  have wrote := (digests own.1 task (Table.find_eq_some.mp there).1).digests pending (Table.find_eq_some.mp here).1
  have same := distinct check member around child cell call request parsed _ pending shown (wrote.symm.trans digest)
  obtain ⟨last,now,kept⟩ := record_stays (Linked.until (split ▸ reached.linked))
    (fun seen member => reached.committed.all seen (by simp [split,member])) found
  rw [same,← own_] at shown
  obtain rfl : pending = last := Option.some.inj (shown.symm.trans now)
  obtain ⟨receipt,there⟩ := Option.isSome_iff_exists.mp answered
  exact nomatch unanswered.symm.trans (kept.receipt receipt there)
end
end Proofstorm.Bridge
