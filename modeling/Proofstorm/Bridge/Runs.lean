import Proofstorm.Bridge.Once

/-!
The main result about task calls, and two runs. In the one a pass claims a call and
creates its child only after another pass has found the call without a child; in
the other the cell moves to another revision between the poll and the claim.
-/
namespace Proofstorm.Bridge
open Proofstorm.Interleaving (Throughout throughout_iff Reachable play Move)

section
variable [Wire]

/-- For any passes, checks and requests, however they interleave and wherever they
    end: a call of a task has at most one child, created by a pass whose own claim
    was fresh, for a call that the grant permits, when the task was running, after
    the pass had read the cell at the revision of the parent; there are at most as
    many records as the grant allows; a record keeps its call, and its receipt once
    it has one; and then no check admits a child of the call. -/
theorem dispatched_once {config : Config} (reached : Reached config) :
    (config.log.filterMap createdKey).Nodup ∧ Throughout Dispatched config.log ∧
      (∀ place, ∀ task ∈ (config.state.managers place).tasks, ∀ scope, task.start.control = some scope →
        task.records.rows.length ≤ scope.maxCalls) ∧
      (∀ newer event older, config.log = newer ++ event :: older → ∀ key record, event.after.record key = some record →
        ∃ later, config.state.record key = some later ∧ record.Later later) ∧
      (DistinctDigests config.log → ∀ newer event older, config.log = newer ++ event :: older → ∀ key record,
        event.after.record key = some record → record.receipt.isSome = true → ∀ check ∈ newer, ∀ around child cell,
          check.request = .admission around child cell →
          (∀ seen ∈ config.log, seen.request = check.request → seen.since = check.since →
            childKey seen.before child = some key) →
          check.reply ≠ some (.ok (.admitted true))) := by
  refine ⟨created_once reached,dispatched reached,fun place task member => ((sound reached).1 place task member).bounded,
    fun newer event older split key record found => ?_,
    fun distinct newer event older split key record found answered check later around child cell request child_ =>
      refused_after reached distinct split found answered later request child_⟩
  obtain ⟨cluster,reached⟩ := reached
  exact record_stays (split ▸ reached.linked) (fun seen member => reached.committed.all seen (by simp [split,member])) found
end

/-! ### A child that comes late -/

def sampleScope : ControlScope := ⟨["chain"],[],[],60,1,30⟩
def sampleStart : TaskStart := ⟨some sampleScope,"miner","src",[],"sleep 60",[],none⟩
def sampleCall : ControlCall := ⟨"mine-1","chain",some ⟨none,"true",[],10,⟨.publicly,[]⟩⟩,none⟩

/-- Documents are told apart by what the sample has of them. -/
instance sampleWire : Wire where
  digestJson
    | .call call => if call = sampleCall then "sha256:call" else "sha256:other call"
    | .scope _ => "sha256:scope"
    | .start start => "sha256:start " ++ start.taskId
    | .owner _ operationId => "sha256:owner " ++ operationId
    | .name label callId => "sha256:" ++ label ++ " " ++ callId
  callText call := call.callId
  parseCall text := if text = sampleCall.callId then some sampleCall else none
  parseStart text := if text = "miner" then some sampleStart else none
  recordBytes _ := 300

def samplePlace : Place := ("i0","scripts")

def sampleParent : Action where
  name := "start-miner"
  uid := some "uid"
  labels := []
  annotations := [(revisionAnnotationKey,"first")]
  spec :=
    { accessScope := none, cellName := "cell", workspaceId := "local", instanceId := "instance", instanceKey := "i0"
      experimentId := "run", sessionId := "session", principalId := "initiator", sequence := 1
      operationId := "start-operation", requestDigest := "", capability := .componentExecLive, acceptedAtUnix := 1
      action := .componentExecLive
        ⟨none,"scripts","",[workspaceRunner,"workspace","request","miner"],25,⟨.privately,[]⟩⟩ }
  status := some ⟨.succeeded,some ⟨"pod","pod-uid"⟩,none,none⟩

def sampleCell : Cell :=
  ⟨"cell","local","instance","i0","first",[("scripts","workspace"),("chain","bitcoin")],false,some .ready⟩

def sampleCluster : Cluster := ⟨[⟨"pod","pod-uid","i0","scripts",true,false⟩],[sampleCell],[sampleParent]⟩

def sampleKey : CallKey := (samplePlace,"miner","mine-1")

/-- The task is started, and submits its call. -/
def submitted : List (Move Request) :=
  [.start (.bridge samplePlace ⟨true,true⟩ (.start sampleStart "start-operation")),.finish 0,
    .start (.bridge samplePlace ⟨true,true⟩ (.ask "miner" "start-operation" (.submit sampleCall))),.finish 0]

def ran (moves : List (Move Request)) : Config := play execute code (emptyWorld sampleCluster) (submitted ++ moves)

theorem ran_reached (moves : List (Move Request)) : Reached (ran moves) := ⟨sampleCluster,.play _⟩

def sampleChild : Action := childActionAt sampleParent sampleCall 7

/-- The first pass has claimed when the second finds a claimed call without a child. -/
def late : Config :=
  ran ([.start (.pass 1 ⟨7,[]⟩ sampleParent)] ++ List.replicate 7 (.perform 0) ++
    [.start (.pass 2 ⟨8,[]⟩ sampleParent),.finish 0,.finish 0,.start (.admission ⟨9,[]⟩ sampleChild sampleCell),.finish 0])

theorem late_reached : Reached late := ran_reached _

theorem sample_distinct (log : List Event) : DistinctDigests log := by
  intro check _ around child cell call _ parsed key record _ same
  have parses : ∀ text other, sampleWire.parseCall text = some other → other = sampleCall := by
    intro text other parsed
    change (if text = sampleCall.callId then some sampleCall else none) = some other at parsed
    split at parsed
    · exact (Option.some.inj parsed).symm
    · exact nomatch parsed
  obtain ⟨text,_,parsed⟩ := Option.bind_eq_some_iff.mp parsed
  obtain rfl := parses text call parsed
  change (if record.call = sampleCall then "sha256:call" else "sha256:other call") =
    if sampleCall = sampleCall then "sha256:call" else "sha256:other call" at same
  by_cases own : record.call = sampleCall
  · exact own
  · rw [if_neg own,if_pos rfl] at same
    exact absurd same (by decide)

/-- What a request asks to be checked. -/
def Request.checked : Request → Option (Surroundings × Action × Cell)
  | .admission around child cell => some (around,child,cell)
  | _ => none

theorem Request.of_checked {request : Request} {around : Surroundings} {child : Action} {cell : Cell}
    (checked : request.checked = some (around,child,cell)) : request = .admission around child cell := by
  cases request with
  | admission => cases checked; rfl
  | _ => exact nomatch checked

/-- The child of the late pass is refused. -/
theorem dispatched_once_late : late.log.filterMap createdKey = [sampleKey] ∧ (late.log.filterMap createdKey).Nodup ∧
    ∀ check ∈ late.log.take 1, check.request.checked = some (⟨9,[]⟩,sampleChild,sampleCell) ∧
      check.reply ≠ some (.ok (.admitted true)) := by
  have main := dispatched_once late_reached
  refine ⟨by decide +kernel,main.1,fun check member => ?_⟩
  have checks : ∀ check ∈ late.log.take 1,
      check.request.checked = some (⟨9,[]⟩,sampleChild,sampleCell) ∧ check.since = 17 := by
    decide +kernel
  obtain ⟨checked,since⟩ := checks check member
  refine ⟨checked,?_⟩
  have completed : (late.log[4]?.bind fun event => (event.after.record sampleKey).bind Record.receipt).isSome := by
    decide +kernel
  obtain ⟨receipt,there⟩ := Option.isSome_iff_exists.mp completed
  obtain ⟨event,place,there⟩ := Option.bind_eq_some_iff.mp there
  obtain ⟨record,found,done⟩ := Option.bind_eq_some_iff.mp there
  obtain ⟨bound,rfl⟩ := List.getElem?_eq_some_iff.mp place
  have split : late.log = late.log.take 4 ++ late.log[4] :: late.log.drop 5 := by
    rw [← List.drop_eq_getElem_cons bound,List.take_append_drop]
  have own : ∀ seen ∈ late.log, seen.since = 17 → childKey seen.before sampleChild = some sampleKey := by
    decide +kernel
  refine main.2.2.2.2 (sample_distinct _) _ _ _ split sampleKey record found (by simp [done]) check ?_ _ _ _
    (Request.of_checked checked) fun seen member _ same => own seen member (same.trans since)
  exact (List.take_subset_take_left late.log (by decide)) member

/-! ### A cell that moves on -/

/-- The cell is at another revision when the pass claims. -/
def moved : Config :=
  ran ([.start (.pass 1 ⟨7,[]⟩ sampleParent)] ++ List.replicate 5 (.perform 0) ++
    [.start (.elsewhere fun cluster => { cluster with
      cells := cluster.cells.map fun cell => { cell with revisionDigest := "second" } }),.finish 0,.finish 0])

theorem moved_reached : Reached moved := ran_reached _

def isClaim (event : Event) : Bool :=
  match event.did with
  | some (.bridge _ _ (.ask _ _ (.claim _))) => true
  | _ => false

def Request.parent : Request → Option Action
  | .pass _ _ parent => some parent
  | _ => none

/-- The call was claimed when the cell was at the revision of the parent. -/
def CreatedAtRevision (older : List Event) (event : Event) : Prop :=
  ∀ key child parent, event.did = some (.create key child) → event.request.parent = some parent →
    ∃ claim ∈ older, isClaim claim = true ∧ ∃ cell ∈ claim.before.cluster.cells, currentRevision parent cell = true

/-- A fresh claim can come when the cell is at another revision than the parent. -/
theorem not_at_revision : ¬ ∀ (_ : Wire) (config : Config), Reached config → Throughout CreatedAtRevision config.log := by
  intro always
  have log := always sampleWire moved moved_reached
  have first : (moved.log.head?.bind createdKey) = some sampleKey ∧
      (moved.log.head?.bind fun event => event.request.parent) = some sampleParent := by decide +kernel
  have claims : ∀ claim ∈ moved.log.tail, isClaim claim = true → ∀ cell ∈ claim.before.cluster.cells,
      currentRevision sampleParent cell = false := by decide +kernel
  cases events : moved.log with
  | nil => simp [events] at first
  | cons event older =>
    rw [events] at log first claims
    obtain ⟨key,child,did⟩ : ∃ key child, event.did = some (.create key child) := by
      have created : createdKey event = some sampleKey := first.1
      unfold createdKey at created
      split at created
      · rename_i key child did
        exact ⟨key,child,did⟩
      · exact nomatch created
    obtain ⟨claim,member,claimed,cell,there,current⟩ := log.1 key child sampleParent did first.2
    exact absurd current (by simp [claims claim member claimed cell there])
end Proofstorm.Bridge
