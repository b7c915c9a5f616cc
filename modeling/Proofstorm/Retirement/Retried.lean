import Proofstorm.Retirement.Grounds
import Proofstorm.Retirement.Removed

/-!
Runs of a retirement. Whatever others do, it removes only after it has saved its marker, and
only what the receipt records. Left alone it can be cut off anywhere and started again
until it ends, always with the same daemon (`retirement_removes_recorded`).
-/
namespace Proofstorm.Retirement
open Proofstorm.Core (Json)
open Proofstorm.Interleaving
open Proofstorm.Interleaving.Call (Alone)
open Proofstorm.Sequenced

/-! ### A retirement left alone -/

section
variable {installation : Installation} {home : Home} {expected : Resources} {machine after : Machine}

theorem authority_ours (authorized : authority installation home = .ok expected) :
    ∀ entry ∈ expected.containers, entry.1 ∈ containerNames installation := by
  simp only [authority,readReceipt,bind_ok,ensure_ok,require_ok,pure_ok] at authorized
  obtain ⟨_,_,_,⟨_,_,_,_,_,_,_,_,_,ours,rfl⟩,_,_,rfl⟩ := authorized
  exact ours

theorem alone_save {state : String} {u : Unit} : Alone exec (run (.saveRetired state)) machine u after ↔
    after = { machine with retired := some state } := by
  refine Call.alone_submit.trans ?_
  simp [exec,eq_comm]

theorem alone_retireLocked {u : Unit} : Alone exec (retireLocked installation home) machine u after ↔
    ∃ expected, authority installation home = .ok expected ∧ Matches installation expected machine.docker ∧
      Exclusive expected machine.docker ∧ Free expected machine.docker ∧
      after = ⟨cleared expected machine.docker,some "deleted"⟩ := by
  simp only [retireLocked,Call.alone_bind,Call.alone_settle]
  constructor
  · rintro ⟨expected,_,⟨authorized,rfl⟩,_,_,read,_,_,checked,_,_,saved,_,_,removed,last⟩
    obtain ⟨rfl,_,_⟩ := compared_facts read
    obtain ⟨_,rfl⟩ := alone_exclusive.mp checked
    obtain rfl := alone_save.mp saved
    obtain ⟨fits,alone,free,rfl⟩ := (alone_remove (authority_ours authorized)).mp removed
    exact ⟨expected,authorized,fits,alone,free,alone_save.mp last⟩
  · rintro ⟨expected,authorized,fits,alone,free,rfl⟩
    obtain ⟨_,read⟩ := compared_succeeds fits
    exact ⟨expected,machine,⟨authorized,rfl⟩,_,_,read,⟨⟩,_,alone_exclusive.mpr ⟨alone,rfl⟩,⟨⟩,_,alone_save.mpr rfl,⟨⟩,_,
      (alone_remove (authority_ours authorized)).mpr ⟨fits,alone,free,rfl⟩,alone_save.mpr rfl⟩

/-! ### Its failures -/

/-- The call gives up at its first failure. -/
abbrev Fails {α : Type} (call : Program α) : Prop := Halts (fun _ => True) call

theorem fails_asks {α : Type} {call : Program α} (asks : Asks call) : Fails call := asks.mono fun _ _ => True.intro

theorem fails_removeContainers (rest : List (String × String)) : Fails (removeContainers installation expected rest) := by
  induction rest with
  | nil => exact halts_pure _
  | cons entry rest ih =>
    rw [removeContainers]
    refine .bind (fails_asks asks_compared) fun _ => .bind (fails_asks asks_exclusive) fun _ => ?_
    split
    · exact .bind (halts_submit True.intro) fun _ => ih
    · exact ih

theorem fails_removeNetwork : Fails (removeNetwork expected) := by
  rw [removeNetwork]
  split
  · refine .bind (halts_submit True.intro) fun _ => ?_
    split
    · exact halts_submit True.intro
    · exact halts_pure _
  · exact halts_pure _

theorem fails_removeVolumes (rest : List (String × Json)) : Fails (removeVolumes expected rest) := by
  induction rest with
  | nil => exact halts_pure _
  | cons entry rest ih =>
    rw [removeVolumes]
    refine .bind (fails_asks asks_exclusive) fun _ => .bind (halts_submit True.intro) fun _ => ?_
    split
    · exact .bind (halts_submit True.intro) fun _ => ih
    · exact ih

theorem fails_remove : Fails (remove installation expected) :=
  .bind (fails_asks asks_compared) fun _ => .bind (fails_asks asks_exclusive) fun _ =>
    .bind (fails_removeContainers _) fun _ => .bind (fails_asks asks_compared) fun _ =>
      .bind (fails_asks asks_exclusive) fun _ => .bind fails_removeNetwork fun _ =>
        .bind (fails_removeVolumes _) fun _ => fails_asks asks_verifyRemoved

theorem fails_retireLocked : Fails (retireLocked installation home) :=
  .bind (halts_settle _) fun _ => .bind (fails_asks asks_compared) fun _ => .bind (fails_asks asks_exclusive) fun _ =>
    .bind (halts_submit True.intro) fun _ => .bind fails_remove fun _ => halts_submit True.intro

/-! ### Where it can be cut off -/

section
variable {first : Docker} {done rest : List (String × String)}

/-- The command leaves a state that a retirement can leave. -/
def Spares (installation : Installation) (expected : Resources) (first : Docker) (command : Command) (machine : Machine) : Prop :=
  Kept installation expected first machine.docker → ∀ answer after, exec command machine = .ok (answer,after) →
    Kept installation expected first after.docker

variable {command : Command} {α : Type} {post : Unit → Machine → Prop}

theorem spares_asks (asks : command.asks = true) : Spares installation expected first command machine := by
  intro kept answer after executed
  rwa [exec_asks asks executed]

theorem asks_meets {call : Program α} (asks : Asks call) :
    call.run.Meets exec Nobody (Spares installation expected first)
      (OnSuccess fun value now => now = machine ∧ Alone exec call machine value machine) machine :=
  Halts.meets asks machine fun _ asked => ⟨spares_asks asked,fun _ _ executed => exec_asks asked executed⟩

theorem meets_asks {call : Program α} {k : α → Program Unit} (asks : Asks call)
    (then_ : ∀ value, Alone exec call machine value machine →
      (k value).run.Meets exec Nobody (Spares installation expected first) (OnSuccess post) machine) :
    (call >>= k).run.Meets exec Nobody (Spares installation expected first) (OnSuccess post) machine := by
  refine .andThen (asks_meets asks) (fun _ _ => True.intro) fun value now ended => ?_
  obtain ⟨rfl,alone⟩ := ended
  exact then_ value alone

theorem meets_run {k : command.Answer → Program Unit}
    (then_ : ∀ answer after, exec command machine = .ok (answer,after) → Kept installation expected first after.docker ∧
      (k answer).run.Meets exec Nobody (Spares installation expected first) (OnSuccess post) after) :
    (run command >>= k).run.Meets exec Nobody (Spares installation expected first) (OnSuccess post) machine := by
  refine .afterSubmit (fun _ _ => True.intro) (fun now steps _ answer after executed => ?_) fun now answer after steps executed => ?_
  all_goals obtain rfl := nobody_eq steps
  · exact (then_ answer after executed).1
  · exact (then_ answer after executed).2

/-- A command that ends the call. -/
theorem meets_last {post : command.Answer → Machine → Prop}
    (then_ : ∀ answer after, exec command machine = .ok (answer,after) →
      Kept installation expected first after.docker ∧ post answer after) :
    (run command).run.Meets exec Nobody (Spares installation expected first) (OnSuccess post) machine := by
  refine .submit (fun now steps _ answer after executed => ?_) (fun now answer after last steps executed more => ?_)
    fun _ _ => True.intro
  all_goals obtain rfl := nobody_eq steps
  · exact (then_ answer after executed).1
  · obtain rfl := nobody_eq more
    exact (then_ answer after executed).2

theorem meets_pure (kept : Kept installation expected first machine.docker) :
    (pure () : Program Unit).run.Meets exec Nobody (Spares installation expected first)
      (OnSuccess fun _ now => Kept installation expected first now.docker) machine := by
  intro now steps
  exact nobody_eq steps ▸ kept

theorem removeContainers_meets (upto : Upto installation expected machine.docker done rest)
    (kept : Kept installation expected first machine.docker) :
    (removeContainers installation expected rest).run.Meets exec Nobody (Spares installation expected first)
      (OnSuccess fun _ now => Kept installation expected first now.docker) machine := by
  induction rest generalizing machine done with
  | nil => exact meets_pure kept
  | cons entry rest ih =>
    rw [removeContainers]
    refine meets_asks asks_compared fun current read => meets_asks asks_exclusive fun _ _ => ?_
    obtain ⟨-,-,shows_⟩ := compared_facts read
    have later : Kept installation expected first
        (machine.keepContainers fun container => container.name ≠ entry.1).docker := kept.drop upto.drop
    split
    · next present =>
      obtain ⟨container,member,named⟩ := (mem_current shows_ upto.our).mp present
      refine meets_run fun answer after executed => ?_
      obtain rfl := (upto.remove kept.fits member named).mp executed
      exact ⟨later,ih upto.next later⟩
    · next absent =>
      have same := keepContainers_absent fun container member named =>
        absent ((mem_current shows_ upto.our).mpr ⟨container,member,named⟩)
      have next := ih upto.next later
      rwa [same] at next

theorem removeNetwork_meets (kept : Kept installation expected first machine.docker) :
    (removeNetwork expected).run.Meets exec Nobody (Spares installation expected first)
      (OnSuccess fun _ now => Kept installation expected first now.docker) machine := by
  cases recorded : expected.networkId with
  | none =>
    rw [removeNetwork,recorded]
    exact meets_pure kept
  | some id =>
    rw [removeNetwork,recorded]
    refine meets_asks (halts_submit rfl) fun names listed => ?_
    obtain ⟨rfl,-⟩ := alone_networkIds.mp listed
    split
    · next present =>
      obtain ⟨network,member,rfl⟩ := List.mem_map.mp present
      refine meets_last fun answer after executed => ?_
      obtain ⟨_,rfl⟩ := (removeNetwork_ok member).mp executed
      have left := kept.drop (drop_network recorded)
      exact ⟨left,left⟩
    · exact meets_pure kept

theorem removeVolumes_meets {rest : List (String × Json)} (recorded : rest ⊆ expected.volumes)
    (kept : Kept installation expected first machine.docker) :
    (removeVolumes expected rest).run.Meets exec Nobody (Spares installation expected first)
      (OnSuccess fun _ now => Kept installation expected first now.docker) machine := by
  induction rest generalizing machine with
  | nil => exact meets_pure kept
  | cons entry rest ih =>
    have later : rest ⊆ expected.volumes := List.Subset.trans (List.subset_cons_self _ _) recorded
    rw [removeVolumes]
    refine meets_asks asks_exclusive fun _ _ => meets_asks (halts_submit rfl) fun names listed => ?_
    obtain ⟨rfl,-⟩ := alone_volumeNames.mp listed
    split
    · next present =>
      obtain ⟨volume,member,named⟩ := List.mem_map.mp present
      refine meets_run fun answer after executed => ?_
      rw [← named] at executed
      obtain ⟨unused,rfl⟩ := (removeVolume_ok member).mp executed
      have left := kept.drop (drop_volume (named ▸ List.mem_map_of_mem (recorded List.mem_cons_self)) unused)
      exact ⟨left,ih later left⟩
    · exact ih later kept

theorem verifyRemoved_meets (kept : Kept installation expected first machine.docker) :
    (verifyRemoved installation expected).run.Meets exec Nobody (Spares installation expected first)
      (OnSuccess fun _ now => Kept installation expected first now.docker) machine :=
  (asks_meets asks_verifyRemoved).mono fun outcome now ends => by
    cases outcome with
    | ok _ => exact ends.1 ▸ kept
    | error _ => exact True.intro

theorem remove_meets (ours : ∀ entry ∈ expected.containers, entry.1 ∈ containerNames installation)
    (kept : Kept installation expected first machine.docker) :
    (remove installation expected).run.Meets exec Nobody (Spares installation expected first)
      (OnSuccess fun _ now => Kept installation expected first now.docker) machine := by
  refine meets_asks asks_compared fun _ _ => meets_asks asks_exclusive fun _ _ => ?_
  refine .andThen (removeContainers_meets (.start ours) kept) (fun _ _ => True.intro) fun _ now kept => ?_
  refine meets_asks asks_compared fun _ _ => meets_asks asks_exclusive fun _ _ => ?_
  refine .andThen (removeNetwork_meets kept) (fun _ _ => True.intro) fun _ now kept => ?_
  exact .andThen (removeVolumes_meets (List.Subset.refl _) kept) (fun _ _ => True.intro) fun _ now kept => verifyRemoved_meets kept

theorem save_spares {state : String} {u : Unit} (kept : Kept installation expected first machine.docker)
    (executed : exec (.saveRetired state) machine = .ok (u,after)) : Kept installation expected first after.docker := by
  obtain rfl := alone_save.mp (Call.alone_submit.mpr executed)
  exact kept

theorem retireLocked_meets (authorized : authority installation home = .ok expected)
    (kept : Kept installation expected first machine.docker) :
    (retireLocked installation home).run.Meets exec Nobody (Spares installation expected first)
      (OnSuccess fun _ _ => True) machine := by
  refine .afterSettle (fun _ _ => True.intro) fun receipt same => ?_
  obtain rfl := Except.ok.inj (authorized.symm.trans same)
  refine meets_asks asks_compared fun _ _ => meets_asks asks_exclusive fun _ _ => meets_run fun _ after saved => ?_
  have kept := save_spares kept saved
  refine ⟨kept,.andThen (remove_meets (authority_ours authorized) kept) (fun _ _ => True.intro) fun _ now kept => ?_⟩
  exact meets_last fun _ _ executed => ⟨save_spares kept executed,True.intro⟩
end

/-! ### Runs -/

/-- Others add, remove or replace whatever the daemon has. The marker is not theirs. -/
def Interferes (a b : Machine) : Prop := b.retired = a.retired

abbrev Step := Moment Machine Command Command.Answer

/-- A retirement of this installation. -/
def retirement (installation : Installation) (home : Home) : Call Machine Command Failure Command.Answer (Except Failure Unit) :=
  (retireLocked installation home).run

/-- Attempts of a retirement, one after the other. -/
abbrev Attempts (installation : Installation) (home : Home) (first : Machine)
    (log : List (Process Unit Machine Command (Except Failure Unit) Command.Answer)) (state : Machine) : Prop :=
  Processes exec .command Nobody (fun _ => retirement installation home) first log state

theorem attempts_kept {first state : Machine} {log : List (Process Unit Machine Command (Except Failure Unit) Command.Answer)}
    (authorized : authority installation home = .ok expected)
    (kept : Kept installation expected first.docker first.docker) (attempts : Attempts installation home first log state) :
    Kept installation expected first.docker state.docker := by
  induction attempts with
  | initial => exact kept
  | disturb _ changed _ => exact changed.elim
  | call _ _ trace ih =>
    exact (trace.meets (fun machine => Kept installation expected first.docker machine.docker)
      (retireLocked_meets authorized ih) ih (fun _ _ _ changed => changed.elim)
      fun _ _ answer after holds spares executed => spares holds answer after executed).2

theorem undisturbed_ok {first last : Machine} {moments : List Step}
    {rest : Call Machine Command Failure Command.Answer (Except Failure Unit)}
    (trace : Trace exec .command Nobody (retirement installation home) first moments rest last)
    (ended : rest.result? = some (.ok ())) : Alone exec (retireLocked installation home) first () last := by
  obtain ⟨_,failed | same⟩ := trace.undisturbed fails_retireLocked
  · obtain ⟨error,rfl⟩ := failed
    cases ended
  · cases rest with
    | done outcome =>
      cases ended
      exact same
    | read next => cases ended
    | write statement next => cases ended
end

end Proofstorm.Retirement
