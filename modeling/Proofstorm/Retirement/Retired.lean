import Proofstorm.Retirement.Retried

/-!
What a retirement guarantees, and where it falls short. A volume is checked before its
removal exactly if the check listed it; a volume that appears between that listing and the
next is removed unchecked. A recorded container that has another name is left behind.
-/
namespace Proofstorm.Retirement
open Proofstorm.Core (Json)
open Proofstorm.Interleaving
open Proofstorm.Interleaving.Call (Alone)
open Proofstorm.Sequenced

/-- Nothing that the receipt records is there. -/
structure Gone (expected : Resources) (docker : Docker) : Prop where
  containers : ∀ container ∈ docker.containers, container.id ∉ expected.ids
  networks : ∀ network ∈ docker.networks, expected.networkId ≠ some network.id
  volumes : ∀ volume ∈ docker.volumes, volume.name ∉ expected.volumes.map Prod.fst

/-- The recorded containers have recorded names. -/
def Named (expected : Resources) (docker : Docker) : Prop :=
  ∀ container ∈ docker.containers, container.id ∈ expected.ids → container.name ∈ expected.containers.map Prod.fst

/-- The steps before the removal of a volume: the check of the volumes that its listing
    showed, and a second listing. -/
structure Review (expected : Resources) (name : String) (second : Step) (check : List Step) (listing : Step) : Prop where
  listedTwice : ∃ names : List String, second.deed = .did .volumeNames names ∧ name ∈ names
  inspects : ∀ step ∈ check, inspects step.deed = true
  listed : listing.deed = .did .volumeNames (listing.before.docker.volumes.map Volume.name)
  found : Checked expected name (check.map Moment.deed) ↔ ∃ volume ∈ listing.before.docker.volumes, volume.name = name

/-- What holds when a command removes something. -/
structure Entitled (expected : Resources) (older : List Step) (command : Command) : Prop where
  saved : ∃ step ∈ older, step.deed = .did (.saveRetired "deleting") ()
  container : ∀ id, command = .removeContainer id → id ∈ expected.ids
  network : ∀ id, command = .removeNetwork id → expected.networkId = some id
  volume : ∀ name, command = .removeVolume name → name ∈ expected.volumes.map Prod.fst ∧
    ∃ (second : Step) (check : List Step) (listing : Step) (before : List Step),
      older = second :: (check ++ listing :: before) ∧ Review expected name second check listing

section
variable {installation : Installation} {home : Home} {expected : Resources}

theorem cleared_gone (docker : Docker) : Gone expected (cleared expected docker) ↔ Named expected docker := by
  constructor
  · intro gone container member recorded
    by_contra other
    refine gone.containers container (Docker.mem_keep_containers.mpr ⟨member,?_⟩) recorded
    simpa [Resources.recordsName] using other
  · intro named
    refine ⟨fun container member recorded => ?_,fun network member => ?_,fun volume member => ?_⟩
    · obtain ⟨there,stays⟩ := Docker.mem_keep_containers.mp member
      have known : expected.recordsName container = true := decide_eq_true (named container there recorded)
      simp [known] at stays
    · simpa [Resources.recordsNetwork] using (Docker.mem_keep_networks.mp member).2
    · simpa [Resources.recordsVolume] using (Docker.mem_keep_volumes.mp member).2

theorem entitled {first last : Machine} {moments newer older : List Step} {removal : Step} {command : Command}
    {answer : command.Answer} {rest : Call Machine Command Failure Command.Answer (Except Failure Unit)}
    (authorized : authority installation home = .ok expected)
    (trace : Trace exec .command Interferes (retirement installation home) first moments rest last)
    (place : moments = newer ++ removal :: older) (did : removal.deed = .did command answer)
    (removes : command.removes = true) : Entitled expected older command := by
  have allows := trace.allowed (retireLocked_grounded authorized) place did
  refine ⟨?_,allows.container,allows.network,fun name same => ?_⟩
  · obtain ⟨step,member,same⟩ := List.mem_map.mp (allows.saved removes)
    exact ⟨step,member,same⟩
  · obtain ⟨recorded,names,deeds,listed,shape,check,others,shown,checked,inspects,found⟩ := allows.volume name same
    obtain ⟨second,later,rfl,twice,rfl⟩ := List.map_eq_cons_iff.mp shape
    obtain ⟨check,later,rfl,rfl,split⟩ := List.map_eq_append_iff.mp checked
    obtain ⟨listing,before,rfl,once,rfl⟩ := List.map_eq_cons_iff.mp split
    refine ⟨recorded,second,check,listing,before,rfl,⟨names,twice,listed⟩,?_,?_,?_⟩
    · exact fun step member => inspects step.deed (List.mem_map_of_mem member)
    all_goals
      have executed : exec .volumeNames listing.before = .ok (shown,listing.after) :=
        trace.executed (by rw [place]; simp) once
      obtain ⟨rfl,_⟩ := alone_volumeNames.mp (Call.alone_submit.mpr executed)
    · exact once
    · obtain ⟨entry,member,rfl⟩ := List.mem_map.mp recorded
      rw [found entry member,List.mem_map]

/-- A removal is of something recorded, after the marker is saved; a removed volume was checked
    if and only if it was there when the check listed the volumes. If nobody interferes and the
    retirement succeeds, nothing recorded is left if and only if the recorded containers had recorded
    names; and after any number of attempts that were cut off, it ends as it would have at first. -/
theorem retirement_removes_recorded (installation : Installation) (home : Home) :
    (∀ (first last : Machine) (moments newer older : List Step) (removal : Step)
        (rest : Call Machine Command Failure Command.Answer (Except Failure Unit)) (command : Command) (answer : command.Answer),
      Trace exec .command Interferes (retirement installation home) first moments rest last →
      moments = newer ++ removal :: older → removal.deed = .did command answer → command.removes = true →
        ∃ expected, authority installation home = .ok expected ∧ Entitled expected older command) ∧
    (∀ (first last : Machine) (moments : List Step) (rest : Call Machine Command Failure Command.Answer (Except Failure Unit)),
      Trace exec .command Nobody (retirement installation home) first moments rest last → rest.result? = some (.ok ()) →
        ∃ expected, authority installation home = .ok expected ∧ (Gone expected last.docker ↔ Named expected first.docker)) ∧
    ∀ (first state last : Machine) (log : List (Process Unit Machine Command (Except Failure Unit) Command.Answer)),
      Alone exec (retireLocked installation home) first () last → Attempts installation home first log state →
        Alone exec (retireLocked installation home) state () last := by
  refine ⟨?_,?_,?_⟩
  · intro first last moments newer older removal rest command answer trace place did removes
    cases authorized : authority installation home with
    | ok expected => exact ⟨expected,rfl,entitled authorized trace place did removes⟩
    | error error =>
      -- Without authority the call ends before its first step.
      have grounded : (retirement installation home).Grounded (fun _ _ => False) (fun _ _ => True) [] := by
        rw [retirement,retireLocked,authorized]
        exact True.intro
      exact (trace.allowed grounded place did).elim
  · intro first last moments rest trace ended
    obtain ⟨expected,authorized,_,_,_,rfl⟩ := alone_retireLocked.mp (undisturbed_ok trace ended)
    exact ⟨expected,authorized,cleared_gone first.docker⟩
  · intro first state last log ended attempts
    obtain ⟨expected,authorized,fits,alone,free,rfl⟩ := alone_retireLocked.mp ended
    obtain ⟨fits,alone,free,leads⟩ := attempts_kept authorized ⟨fits,alone,free,rfl⟩ attempts
    exact alone_retireLocked.mpr ⟨expected,authorized,fits,alone,free,by rw [leads]⟩
end

/-! ### Samples -/

def sampleInstallation : Installation := ⟨2,"0123456789abcdef"⟩

def sampleContainer (name : String) : Container := ⟨"c0ffee",name,sampleInstallation.id,"",[],[]⟩

def sampleVolume (createdAt : String) : Volume :=
  ⟨"k3d-proofstorm-01234567-images",some createdAt,.str "local",.null,.null⟩

def sampleReceipt : Resources where
  formatVersion := 1
  installationId := sampleInstallation.id
  daemonId := "daemon"
  containers := [("k3d-proofstorm-01234567-server-0","c0ffee")]
  networkId := none
  volumes := [(sampleVolume "then").entry]

def sampleHome : Home := ⟨false,some ⟨true,512,some sampleReceipt⟩,none,false,false⟩

/-- The daemon with at most one container, and such volumes. -/
def sampleMachine (name : String) (volumes : List Volume) (distinct : (volumes.map Volume.name).Nodup) : Machine where
  docker := {
    daemonId := "daemon"
    containers := [sampleContainer name]
    networks := []
    volumes := volumes
    containerIds := List.nodup_singleton _
    containerNames := List.nodup_singleton _
    networkIds := .nil
    volumeNames := distinct
    plain := by
      intro id member
      rw [show id = "c0ffee" by simpa [sampleContainer] using member]
      decide }
  retired := none

/-- What was recorded. -/
def recorded : Machine :=
  sampleMachine "k3d-proofstorm-01234567-server-0" [sampleVolume "then"] (List.nodup_singleton _)

/-- The recorded container has another name, and the volume is gone. -/
def renamed : Machine := sampleMachine "kept" [] .nil

/-- Another volume has the name of the recorded one. -/
def reoccupied : Machine := sampleMachine "kept" [sampleVolume "now"] (List.nodup_singleton _)

/-- So many steps of a retirement, left alone, from there on. -/
def sampleSteps (fuel : Nat) (machine : Machine) :
    List Step × Call Machine Command Failure Command.Answer (Except Failure Unit) × Machine :=
  stepped exec fuel (retirement sampleInstallation sampleHome) machine []

theorem retirement_removes_recorded_sample :
    (∃ expected, authority sampleInstallation sampleHome = .ok expected ∧
      Entitled expected (sampleSteps 28 recorded).1 (.removeContainer "c0ffee")) ∧
    (∃ expected, authority sampleInstallation sampleHome = .ok expected ∧
      (Gone expected (sampleSteps 60 recorded).2.2.docker ↔ Named expected recorded.docker)) ∧
    Alone exec (retireLocked sampleInstallation sampleHome) (sampleSteps 30 recorded).2.2 () (sampleSteps 60 recorded).2.2 := by
  obtain ⟨removals,success,retry⟩ := retirement_removes_recorded sampleInstallation sampleHome
  refine ⟨?_,?_,?_⟩
  · exact removals recorded _ _ [] _ ⟨.did (.removeContainer "c0ffee") (),(sampleSteps 28 recorded).2.2,(sampleSteps 29 recorded).2.2⟩
      _ _ () (Trace.start.stepped 29) rfl rfl rfl
  · exact success recorded _ _ _ (Trace.start.stepped 60) rfl
  · exact retry recorded _ _ _ rfl (Processes.initial.stepped 30 ())

/-- A recorded container of another name is left behind, and a volume that takes a recorded name
    after the last check of it is removed. -/
theorem retirement_leaves_and_removes :
    (∃ (moments : List Step) (rest : Call Machine Command Failure Command.Answer (Except Failure Unit)) (last : Machine),
      Trace exec .command Nobody (retirement sampleInstallation sampleHome) renamed moments rest last ∧
        rest.result? = some (.ok ()) ∧ ¬ Gone sampleReceipt last.docker) ∧
    ∃ (removal : Step) (older : List Step) (rest : Call Machine Command Failure Command.Answer (Except Failure Unit)) (last : Machine),
      Trace exec .command Interferes (retirement sampleInstallation sampleHome) renamed (removal :: older) rest last ∧
        removal.deed = .did (.removeVolume "k3d-proofstorm-01234567-images") () ∧
        sampleVolume "now" ∈ removal.before.docker.volumes ∧ (sampleVolume "now").entry ∉ sampleReceipt.volumes ∧
        ∀ step ∈ older, inspects step.deed = false := by
  have first : Trace exec .command Interferes (retirement sampleInstallation sampleHome) renamed (sampleSteps 22 renamed).1
      (sampleSteps 22 renamed).2.1 (sampleSteps 22 renamed).2.2 := Trace.start.stepped 22
  have taken : Interferes (sampleSteps 22 renamed).2.2 { reoccupied with retired := some "deleting" } := rfl
  refine ⟨⟨_,_,_,Trace.start.stepped 60,rfl,fun gone => ?_⟩,?_⟩
  · exact gone.containers (sampleContainer "kept") List.mem_cons_self List.mem_cons_self
  · exact ⟨_,_,_,_,(first.disturb taken).stepped 2,rfl,List.mem_cons_self,by decide,by decide⟩
end Proofstorm.Retirement
