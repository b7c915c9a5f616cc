import Proofstorm.Entries
import Proofstorm.Retirement.Quiet

/-!
The removals of a retirement, left alone. They take away what the receipt records and
leave the rest (`cleared`), unless something that stays uses a recorded network or
volume (`alone_retireLocked`). Whatever part of it is taken away, the checks still accept
the state and the rest leads to the same end (`Kept.drop`).
-/
namespace Proofstorm.Retirement
open Proofstorm.Core (Json)
open Proofstorm.Interleaving
open Proofstorm.Interleaving.Call (Alone)

namespace Docker

variable {docker : Docker}

theorem keep_keep (p p' : Container → Bool) (q q' : Network → Bool) (r r' : Volume → Bool) :
    (docker.keep p q r).keep p' q' r' = docker.keep (fun c => p c && p' c) (fun n => q n && q' n) fun v => r v && r' v := by
  ext1
  · rfl
  all_goals simp only [keep,List.filter_filter,Bool.and_comm]

theorem keep_congr {p p' : Container → Bool} {q q' : Network → Bool} {r r' : Volume → Bool}
    (containers : ∀ container ∈ docker.containers, p container = p' container)
    (networks : ∀ network ∈ docker.networks, q network = q' network)
    (volumes : ∀ volume ∈ docker.volumes, r volume = r' volume) : docker.keep p q r = docker.keep p' q' r' := by
  ext1
  · rfl
  · exact List.filter_congr containers
  · exact List.filter_congr networks
  · exact List.filter_congr volumes

theorem keep_all (docker : Docker) : docker.keep (fun _ => true) (fun _ => true) (fun _ => true) = docker := by
  ext1
  · rfl
  all_goals exact List.filter_eq_self.mpr fun _ _ => rfl

section
variable {p : Container → Bool} {q : Network → Bool} {r : Volume → Bool}

theorem mem_keep_containers {container : Container} :
    container ∈ (docker.keep p q r).containers ↔ container ∈ docker.containers ∧ p container = true := List.mem_filter

theorem mem_keep_networks {network : Network} :
    network ∈ (docker.keep p q r).networks ↔ network ∈ docker.networks ∧ q network = true := List.mem_filter

theorem mem_keep_volumes {volume : Volume} :
    volume ∈ (docker.keep p q r).volumes ↔ volume ∈ docker.volumes ∧ r volume = true := List.mem_filter
end

end Docker

/-! ### What is left in the end -/

def Resources.recordsName (expected : Resources) (container : Container) : Bool :=
  container.name ∈ expected.containers.map Prod.fst

def Resources.recordsNetwork (expected : Resources) (network : Network) : Bool := expected.networkId = some network.id

def Resources.recordsVolume (expected : Resources) (volume : Volume) : Bool :=
  volume.name ∈ expected.volumes.map Prod.fst

/-- A daemon without what goes by a recorded name, or by the recorded id of the network. -/
def cleared (expected : Resources) (docker : Docker) : Docker :=
  docker.keep (fun container => !expected.recordsName container) (fun network => !expected.recordsNetwork network)
    fun volume => !expected.recordsVolume volume

/-- What stays uses nothing that goes. -/
structure Free (expected : Resources) (docker : Docker) : Prop where
  network : ∀ container ∈ docker.containers, expected.recordsName container = false →
    ∀ network ∈ docker.networks, expected.recordsNetwork network = true → network.id ∉ container.networks
  volumes : ∀ container ∈ docker.containers, expected.recordsName container = false →
    ∀ volume ∈ docker.volumes, expected.recordsVolume volume = true → container.uses volume.name = false

section
variable {installation : Installation} {expected : Resources} {docker : Docker} {machine after : Machine}

/-- What takes away recorded things only, and no volume that is in use afterwards. -/
structure Drop (expected : Resources) (docker : Docker) (p : Container → Bool) (q : Network → Bool) (r : Volume → Bool) : Prop where
  containers : ∀ container ∈ docker.containers, p container = false → expected.recordsName container = true
  networks : ∀ network ∈ docker.networks, q network = false → expected.recordsNetwork network = true
  volumes : ∀ volume ∈ docker.volumes, r volume = false → expected.recordsVolume volume = true
  unused : ∀ volume ∈ docker.volumes, r volume = false → ∀ container ∈ docker.containers, p container = true →
    container.uses volume.name = false

section
variable {p : Container → Bool} {q : Network → Bool} {r : Volume → Bool}

theorem MountsKnown.drop (drop : Drop expected docker p q r) {container : Container}
    (member : container ∈ (docker.keep p q r).containers) (known : MountsKnown docker container.mounts) :
    MountsKnown (docker.keep p q r) container.mounts := by
  intro mount mounted kind
  obtain ⟨volume,there,named,created⟩ := known mount mounted kind
  obtain ⟨among,stays⟩ := Docker.mem_keep_containers.mp member
  refine ⟨volume,Docker.mem_keep_volumes.mpr ⟨there,?_⟩,named,created⟩
  by_contra gone
  have uses : container.uses volume.name = true := uses_iff.mpr ⟨mount,mounted,kind,named⟩
  rw [drop.unused volume there (Bool.eq_false_of_not_eq_true gone) container among stays] at uses
  cases uses

theorem Matches.drop (fits : Matches installation expected docker) (drop : Drop expected docker p q r) :
    Matches installation expected (docker.keep p q r) := by
  refine ⟨fits.daemon,?_,?_,?_,?_⟩
  · exact fun network member => fits.network network (Docker.mem_keep_networks.mp member).1
  · intro container member named
    obtain ⟨readable,recorded⟩ := fits.containers container (Docker.mem_keep_containers.mp member).1 named
    exact ⟨⟨readable.owned,readable.id,readable.mounts.drop drop member⟩,recorded⟩
  · exact fun volume member => fits.images volume (Docker.mem_keep_volumes.mp member).1
  · intro volume member seen
    refine fits.volumes volume (Docker.mem_keep_volumes.mp member).1 (seen.imp_left ?_)
    exact fun ⟨container,there,facts⟩ => ⟨container,(Docker.mem_keep_containers.mp there).1,facts⟩

theorem Exclusive.keep (alone : Exclusive expected docker) (p : Container → Bool) (q : Network → Bool) (r : Volume → Bool) :
    Exclusive expected (docker.keep p q r) := by
  refine ⟨fun network member recorded id among => ?_,fun entry recorded volume member named => ?_⟩
  · obtain ⟨container,there,joined,rfl⟩ := Docker.mem_members.mp among
    exact alone.members network (Docker.mem_keep_networks.mp member).1 recorded _
      (Docker.mem_members.mpr ⟨container,(Docker.mem_keep_containers.mp there).1,joined,rfl⟩)
  · obtain ⟨same,within⟩ := alone.volumes entry recorded volume (Docker.mem_keep_volumes.mp member).1 named
    refine ⟨same,fun id among => ?_⟩
    obtain ⟨container,there,uses,rfl⟩ := Docker.mem_users.mp among
    exact within _ (Docker.mem_users.mpr ⟨container,(Docker.mem_keep_containers.mp there).1,uses,rfl⟩)

theorem Free.keep (free : Free expected docker) (p : Container → Bool) (q : Network → Bool) (r : Volume → Bool) :
    Free expected (docker.keep p q r) :=
  ⟨fun container there stays network member => free.network container (Docker.mem_keep_containers.mp there).1 stays network
      (Docker.mem_keep_networks.mp member).1,
    fun container there stays volume member => free.volumes container (Docker.mem_keep_containers.mp there).1 stays volume
      (Docker.mem_keep_volumes.mp member).1⟩

theorem cleared_drop (drop : Drop expected docker p q r) : cleared expected (docker.keep p q r) = cleared expected docker := by
  rw [cleared,Docker.keep_keep]
  refine Docker.keep_congr (fun container member => ?_) (fun network member => ?_) fun volume member => ?_
  · cases stays : p container with
    | true => rfl
    | false => simp [drop.containers container member stays]
  · cases stays : q network with
    | true => rfl
    | false => simp [drop.networks network member stays]
  · cases stays : r volume with
    | true => rfl
    | false => simp [drop.volumes volume member stays]
end

/-- A state that a retirement from `first` can leave. -/
structure Kept (installation : Installation) (expected : Resources) (first docker : Docker) : Prop where
  fits : Matches installation expected docker
  alone : Exclusive expected docker
  free : Free expected docker
  leads : cleared expected docker = cleared expected first

variable {p : Container → Bool} {q : Network → Bool} {r : Volume → Bool} {container : Container}

theorem Kept.drop {first : Docker}
    (kept : Kept installation expected first docker) (drop : Drop expected docker p q r) :
    Kept installation expected first (docker.keep p q r) :=
  ⟨kept.fits.drop drop,kept.alone.keep p q r,kept.free.keep p q r,(cleared_drop drop).trans kept.leads⟩

/-! ### Removals -/

theorem drop_network {id : String} (recorded : expected.networkId = some id) :
    Drop expected docker (fun _ => true) (fun other => other.id ≠ id) fun _ => true := by
  refine ⟨nofun,fun other there gone => ?_,nofun,nofun⟩
  have same : other.id = id := by simpa using gone
  simp [Resources.recordsNetwork,recorded,same]

theorem drop_volume {name : String} (recorded : name ∈ expected.volumes.map Prod.fst) (unused : docker.users name = []) :
    Drop expected docker (fun _ => true) (fun _ => true) fun other => other.name ≠ name := by
  refine ⟨nofun,nofun,fun volume there gone => ?_,fun volume there gone container member _ => ?_⟩
  · have same : volume.name = name := by simpa using gone
    exact decide_eq_true (same ▸ recorded)
  · have same : volume.name = name := by simpa using gone
    refine Bool.eq_false_of_not_eq_true fun uses => ?_
    have among : container.id ∈ docker.users name := Docker.mem_users.mpr ⟨container,member,same ▸ uses,rfl⟩
    rw [unused] at among
    cases among

theorem removeContainer_ok (member : container ∈ machine.docker.containers) {u : Unit} :
    exec (.removeContainer container.id) machine = .ok (u,after) ↔
      after = { machine with docker := machine.docker.dropContainer container.id } := by
  simp [exec,Machine.removeContainer,Docker.containerAt_id member,eq_comm]

theorem removeNetwork_ok {network : Network} (member : network ∈ machine.docker.networks) {u : Unit} :
    exec (.removeNetwork network.id) machine = .ok (u,after) ↔ machine.docker.members network = [] ∧
      after = { machine with docker := machine.docker.dropNetwork network.id } := by
  rw [exec,Machine.removeNetwork,Docker.networkAt_id member]
  simp only
  split
  · next none_ => simp [none_,eq_comm]
  · next some_ => simp [some_]

theorem removeVolume_ok {volume : Volume} (member : volume ∈ machine.docker.volumes) {u : Unit} :
    exec (.removeVolume volume.name) machine = .ok (u,after) ↔ machine.docker.users volume.name = [] ∧
      after = { machine with docker := machine.docker.dropVolume volume.name } := by
  rw [exec,Machine.removeVolume,Docker.volumeAt_iff.mpr ⟨member,rfl⟩]
  simp only
  split
  · next none_ => simp [none_,eq_comm]
  · next some_ => simp [some_]

/-- The name is found under its first entry. -/
theorem lookup_suffix {done rest : List (String × String)} {name id : String} (fresh : ∀ entry ∈ done, entry.1 ≠ name) :
    (done ++ (name,id) :: rest).lookup name = some id := by
  induction done with
  | nil => simp
  | cons entry done ih =>
    obtain ⟨other,more⟩ := List.forall_mem_cons.mp fresh
    rw [List.cons_append,List.lookup_cons,show (name == entry.1) = false from beq_false_of_ne other.symm]
    exact ih more

/-- The container of a recorded name, where the entries before it name none that is there, has the recorded id. -/
theorem Matches.id_eq (fits : Matches installation expected docker) {done rest : List (String × String)} {name id : String}
    (entries : expected.containers = done ++ (name,id) :: rest)
    (gone : ∀ entry ∈ done, ∀ container ∈ docker.containers, container.name ≠ entry.1) {container : Container}
    (member : container ∈ docker.containers) (named : container.name = name)
    (ours : name ∈ containerNames installation) : container.id = id := by
  have recorded := (fits.containers container member (named ▸ ours)).2
  rw [entries,named,lookup_suffix fun entry among => named ▸ (gone entry among container member).symm] at recorded
  exact (Option.some.inj recorded).symm

/-! ### The loops -/

/-- Only those containers. -/
def Machine.keepContainers (machine : Machine) (p : Container → Bool) : Machine :=
  { machine with docker := machine.docker.keep p (fun _ => true) fun _ => true }

def Machine.keepNetworks (machine : Machine) (q : Network → Bool) : Machine :=
  { machine with docker := machine.docker.keep (fun _ => true) q fun _ => true }

def Machine.keepVolumes (machine : Machine) (r : Volume → Bool) : Machine :=
  { machine with docker := machine.docker.keep (fun _ => true) (fun _ => true) r }

theorem dropContainer_eq (member : container ∈ docker.containers) :
    docker.dropContainer container.id = docker.keep (fun other => other.name ≠ container.name) (fun _ => true) fun _ => true := by
  refine Docker.keep_congr (fun other there => decide_eq_decide.mpr (not_congr ⟨fun same => ?_,fun same => ?_⟩))
    (fun _ _ => rfl) fun _ _ => rfl
  · rw [List.inj_on_of_nodup_map docker.containerIds there member same]
  · rw [Docker.container_eq there member same]

theorem keepContainers_all (all : ∀ container ∈ machine.docker.containers, p container = true) :
    machine.keepContainers p = machine := by
  rw [Machine.keepContainers,Docker.keep_congr all (fun _ _ => rfl) (fun _ _ => rfl),Docker.keep_all]

theorem keepNetworks_all (all : ∀ network ∈ machine.docker.networks, q network = true) :
    machine.keepNetworks q = machine := by
  rw [Machine.keepNetworks,Docker.keep_congr (fun _ _ => rfl) all (fun _ _ => rfl),Docker.keep_all]

theorem keepVolumes_all (all : ∀ volume ∈ machine.docker.volumes, r volume = true) :
    machine.keepVolumes r = machine := by
  rw [Machine.keepVolumes,Docker.keep_congr (fun _ _ => rfl) (fun _ _ => rfl) all,Docker.keep_all]

theorem keepContainers_absent {name : String} (absent : ∀ container ∈ machine.docker.containers, container.name ≠ name) :
    (machine.keepContainers fun container => container.name ≠ name) = machine :=
  keepContainers_all fun container member => decide_eq_true (absent container member)

theorem keepVolumes_absent {name : String} (absent : ∀ volume ∈ machine.docker.volumes, volume.name ≠ name) :
    (machine.keepVolumes fun volume => volume.name ≠ name) = machine :=
  keepVolumes_all fun volume member => decide_eq_true (absent volume member)

theorem mem_current {current : Resources} (shows_ : Shows installation docker current) {name : String}
    (ours : name ∈ containerNames installation) :
    name ∈ current.containers.map Prod.fst ↔ ∃ container ∈ docker.containers, container.name = name := by
  rw [List.mem_map]
  constructor
  · rintro ⟨entry,among,rfl⟩
    obtain ⟨container,member,rfl,_⟩ := (shows_.containers entry).mp among
    exact ⟨container,member,rfl⟩
  · rintro ⟨container,member,rfl⟩
    exact ⟨container.entry,(shows_.containers _).mpr ⟨container,member,rfl,ours⟩,rfl⟩

section
variable {done rest : List (String × String)}

/-- The receipt's containers, some of which are done and gone. -/
structure Upto (installation : Installation) (expected : Resources) (docker : Docker) (done rest : List (String × String)) : Prop where
  entries : expected.containers = done ++ rest
  gone : ∀ entry ∈ done, ∀ container ∈ docker.containers, container.name ≠ entry.1
  ours : ∀ entry ∈ expected.containers, entry.1 ∈ containerNames installation

theorem Upto.start (ours : ∀ entry ∈ expected.containers, entry.1 ∈ containerNames installation) :
    Upto installation expected docker [] expected.containers := ⟨rfl,by simp,ours⟩

variable {entry : String × String}

section
variable (upto : Upto installation expected docker done (entry :: rest))
include upto

theorem Upto.next :
    Upto installation expected (docker.keep (fun container => container.name ≠ entry.1) (fun _ => true) fun _ => true)
      (done ++ [entry]) rest := by
  refine ⟨upto.entries.trans (by simp),fun other among container member => ?_,upto.ours⟩
  obtain ⟨there,other_⟩ := Docker.mem_keep_containers.mp member
  rcases List.mem_append.mp among with among | among
  · exact upto.gone other among container there
  · rw [List.mem_singleton.mp among]
    exact of_decide_eq_true other_

theorem Upto.our :
    entry.1 ∈ containerNames installation := upto.ours entry (by rw [upto.entries]; simp)

theorem Upto.drop :
    Drop expected docker (fun container => container.name ≠ entry.1) (fun _ => true) fun _ => true := by
  refine ⟨fun container _ gone => ?_,nofun,nofun,nofun⟩
  have same : container.name = entry.1 := by simpa using gone
  exact decide_eq_true (List.mem_map.mpr ⟨entry,by rw [upto.entries]; simp,same.symm⟩)
end

section
variable (upto : Upto installation expected machine.docker done (entry :: rest))
  (fits : Matches installation expected machine.docker)
include upto fits

theorem Upto.remove {container : Container} (member : container ∈ machine.docker.containers)
    (named : container.name = entry.1) {u : Unit} : exec (.removeContainer entry.2) machine = .ok (u,after) ↔
      after = machine.keepContainers fun container => container.name ≠ entry.1 := by
  rw [← fits.id_eq upto.entries upto.gone member named upto.our,removeContainer_ok member,dropContainer_eq member,named]
  rfl

theorem alone_removeContainers_cons (alone : Exclusive expected machine.docker) {u : Unit} :
    Alone exec (removeContainers installation expected (entry :: rest)) machine u after ↔
      Alone exec (removeContainers installation expected rest)
        (machine.keepContainers fun container => container.name ≠ entry.1) u after := by
  rw [removeContainers]
  simp only [Call.alone_bind,Call.alone_ite]
  constructor
  · rintro ⟨current,_,read,_,_,checked,ended⟩
    obtain ⟨rfl,_,shows_⟩ := compared_facts read
    obtain ⟨_,rfl⟩ := alone_exclusive.mp checked
    split at ended
    · next present =>
      obtain ⟨container,member,named⟩ := (mem_current shows_ upto.our).mp present
      obtain ⟨_,_,removed,last⟩ := ended
      obtain rfl := (upto.remove fits member named).mp (Call.alone_submit.mp removed)
      exact last
    · next absent =>
      rwa [keepContainers_absent fun container member named => absent ((mem_current shows_ upto.our).mpr ⟨container,member,named⟩)]
  · intro last
    obtain ⟨current,read⟩ := compared_succeeds fits
    obtain ⟨-,-,shows_⟩ := compared_facts read
    refine ⟨current,machine,read,⟨⟩,machine,alone_exclusive.mpr ⟨alone,rfl⟩,?_⟩
    split
    · next present =>
      obtain ⟨container,member,named⟩ := (mem_current shows_ upto.our).mp present
      exact ⟨⟨⟩,_,Call.alone_submit.mpr ((upto.remove fits member named).mpr rfl),last⟩
    · next absent =>
      rwa [keepContainers_absent fun container member named =>
        absent ((mem_current shows_ upto.our).mpr ⟨container,member,named⟩)] at last
end

theorem alone_removeContainers (upto : Upto installation expected machine.docker done rest)
    (fits : Matches installation expected machine.docker) (alone : Exclusive expected machine.docker) {u : Unit} :
    Alone exec (removeContainers installation expected rest) machine u after ↔
      after = machine.keepContainers fun container => container.name ∉ rest.map Prod.fst := by
  induction rest generalizing machine done with
  | nil =>
    rw [List.map_nil,keepContainers_all (fun _ _ => decide_eq_true List.not_mem_nil),removeContainers,Call.alone_pure,eq_comm (a := machine)]
    exact and_iff_right rfl
  | cons entry rest ih =>
    rw [alone_removeContainers_cons upto fits alone,ih upto.next (fits.drop upto.drop) (alone.keep _ _ _)]
    rw [Machine.keepContainers,Machine.keepContainers,Docker.keep_keep]
    refine Eq.congr_right (congrArg (Machine.mk · machine.retired) (Docker.keep_congr (fun container _ => ?_) (fun _ _ => rfl) fun _ _ => rfl))
    rw [Bool.eq_iff_iff]
    simp [not_or]
end

variable {u : Unit} {rest : List (String × Json)}

theorem alone_removeNetwork : Alone exec (removeNetwork expected) machine u after ↔
    (∀ network ∈ machine.docker.networks, expected.recordsNetwork network = true → machine.docker.members network = []) ∧
      after = machine.keepNetworks fun network => !expected.recordsNetwork network := by
  rw [removeNetwork]
  cases recorded : expected.networkId with
  | none =>
    rw [keepNetworks_all (by simp [Resources.recordsNetwork,recorded]),Call.alone_pure,eq_comm (a := machine)]
    refine and_congr_left' (iff_of_true rfl fun network _ records => ?_)
    simp [Resources.recordsNetwork,recorded] at records
  | some id =>
    have drops : (machine.keepNetworks fun network => !expected.recordsNetwork network) =
        { machine with docker := machine.docker.dropNetwork id } := by
      refine congrArg (Machine.mk · machine.retired) (Docker.keep_congr (fun _ _ => rfl) (fun network _ => ?_) fun _ _ => rfl)
      simp [Resources.recordsNetwork,recorded,eq_comm]
    simp only [Call.alone_bind,Call.alone_ite,Call.alone_pure]
    constructor
    · rintro ⟨_,_,listed,ended⟩
      obtain ⟨rfl,rfl⟩ := alone_networkIds.mp listed
      rw [drops]
      split at ended
      · next present =>
        obtain ⟨network,member,rfl⟩ := List.mem_map.mp present
        obtain ⟨empty,rfl⟩ := (removeNetwork_ok member).mp (Call.alone_submit.mp ended)
        refine ⟨fun other there same => ?_,rfl⟩
        have same : network.id = other.id := by simpa [Resources.recordsNetwork,recorded] using same
        rwa [Docker.network_eq there member same.symm]
      · next absent =>
        have none_ : ∀ network ∈ machine.docker.networks, network.id ≠ id :=
          fun network member same => absent (List.mem_map.mpr ⟨network,member,same⟩)
        refine ⟨fun network member same => absurd ?_ (none_ network member),?_⟩
        · simpa [Resources.recordsNetwork,recorded,eq_comm] using same
        · exact ended.2.symm.trans (keepNetworks_all fun network member => decide_eq_true (none_ network member)).symm
    · rintro ⟨empty,rfl⟩
      refine ⟨_,_,alone_networkIds.mpr ⟨rfl,rfl⟩,?_⟩
      rw [drops]
      split
      · next present =>
        obtain ⟨network,member,rfl⟩ := List.mem_map.mp present
        exact Call.alone_submit.mpr ((removeNetwork_ok member).mpr
          ⟨empty network member (by simp [Resources.recordsNetwork,recorded]),rfl⟩)
      · next absent =>
        have none_ : ∀ network ∈ machine.docker.networks, network.id ≠ id :=
          fun network member same => absent (List.mem_map.mpr ⟨network,member,same⟩)
        exact ⟨True.intro,(keepNetworks_all fun network member => decide_eq_true (none_ network member)).symm⟩

theorem users_keepVolumes (r : Volume → Bool) (name : String) : (machine.keepVolumes r).docker.users name = machine.docker.users name := by
  have same : (machine.keepVolumes r).docker.containers = machine.docker.containers := List.filter_eq_self.mpr fun _ _ => rfl
  rw [Docker.users,Docker.users,same]

theorem alone_removeVolumes_cons {entry : String × Json}
    (alone : Exclusive expected machine.docker) {u : Unit} :
    Alone exec (removeVolumes expected (entry :: rest)) machine u after ↔
      (∀ volume ∈ machine.docker.volumes, volume.name = entry.1 → machine.docker.users entry.1 = []) ∧
        Alone exec (removeVolumes expected rest) (machine.keepVolumes fun volume => volume.name ≠ entry.1) u after := by
  rw [removeVolumes]
  simp only [Call.alone_bind,Call.alone_ite]
  constructor
  · rintro ⟨_,_,checked,_,_,listed,ended⟩
    obtain ⟨_,rfl⟩ := alone_exclusive.mp checked
    obtain ⟨rfl,rfl⟩ := alone_volumeNames.mp listed
    split at ended
    · next present =>
      obtain ⟨volume,member,named⟩ := List.mem_map.mp present
      obtain ⟨_,_,removed,last⟩ := ended
      rw [← named] at removed ⊢
      obtain ⟨unused,rfl⟩ := (removeVolume_ok member).mp (Call.alone_submit.mp removed)
      exact ⟨fun _ _ _ => unused,last⟩
    · next absent =>
      have none_ : ∀ volume ∈ machine.docker.volumes, volume.name ≠ entry.1 :=
        fun volume member named => absent (List.mem_map.mpr ⟨volume,member,named⟩)
      exact ⟨fun volume member named => absurd named (none_ volume member),by rwa [keepVolumes_absent none_]⟩
  · rintro ⟨unused,last⟩
    refine ⟨⟨⟩,machine,alone_exclusive.mpr ⟨alone,rfl⟩,_,_,alone_volumeNames.mpr ⟨rfl,rfl⟩,?_⟩
    split
    · next present =>
      obtain ⟨volume,member,named⟩ := List.mem_map.mp present
      have empty := unused volume member named
      rw [← named] at empty last ⊢
      exact ⟨⟨⟩,_,Call.alone_submit.mpr ((removeVolume_ok member).mpr ⟨empty,rfl⟩),last⟩
    · next absent =>
      rwa [keepVolumes_absent fun volume member named => absent (List.mem_map.mpr ⟨volume,member,named⟩)] at last

theorem alone_removeVolumes (alone : Exclusive expected machine.docker) {u : Unit} :
    Alone exec (removeVolumes expected rest) machine u after ↔
      (∀ volume ∈ machine.docker.volumes, volume.name ∈ rest.map Prod.fst → machine.docker.users volume.name = []) ∧
        after = machine.keepVolumes fun volume => volume.name ∉ rest.map Prod.fst := by
  induction rest generalizing machine with
  | nil =>
    rw [List.map_nil,keepVolumes_all (fun _ _ => decide_eq_true List.not_mem_nil),removeVolumes,Call.alone_pure,eq_comm (a := machine)]
    simp
  | cons entry rest ih =>
    have both : ((machine.keepVolumes fun volume => volume.name ≠ entry.1).keepVolumes fun volume =>
        volume.name ∉ rest.map Prod.fst) = machine.keepVolumes fun volume => volume.name ∉ (entry :: rest).map Prod.fst := by
      rw [Machine.keepVolumes,Machine.keepVolumes,Docker.keep_keep]
      refine congrArg (Machine.mk · machine.retired) (Docker.keep_congr (fun _ _ => rfl) (fun _ _ => rfl) fun volume _ => ?_)
      rw [Bool.eq_iff_iff]
      simp [not_or]
    rw [alone_removeVolumes_cons alone,ih (alone.keep _ _ _),both,← and_assoc]
    refine and_congr_left' ⟨fun ⟨here,others⟩ volume member among => ?_,fun all => ⟨?_,fun volume member among => ?_⟩⟩
    · by_cases same : volume.name = entry.1
      · rw [same]
        exact here volume member same
      · rw [← users_keepVolumes fun volume => volume.name ≠ entry.1]
        refine others volume (Docker.mem_keep_volumes.mpr ⟨member,decide_eq_true same⟩) ?_
        exact (List.mem_cons.mp among).resolve_left same
    · exact fun volume member same => same ▸ all volume member (same ▸ List.mem_cons_self)
    · rw [users_keepVolumes]
      exact all volume (Docker.mem_keep_volumes.mp member).1 (List.mem_cons_of_mem _ among)

/-! ### The whole -/

/-- Nothing goes by a name of the installation. -/
structure Bare (installation : Installation) (docker : Docker) : Prop where
  containers : ∀ container ∈ docker.containers, container.name ∉ containerNames installation
  networks : ∀ network ∈ docker.networks, network.name ≠ installation.networkName
  images : ∀ volume ∈ docker.volumes, volume.name ≠ installation.imageVolume

theorem verifyRemoved_facts (ended : Alone exec (verifyRemoved installation expected) machine u after) :
    machine = after := by
  simp only [verifyRemoved,Call.alone_bind,Call.alone_settle] at ended
  obtain ⟨_,_,read,_,rfl⟩ := ended
  exact (compared_facts read).1

theorem verifyRemoved_succeeds (fits : Matches installation expected machine.docker) (bare : Bare installation machine.docker) :
    Alone exec (verifyRemoved installation expected) machine () machine := by
  obtain ⟨current,read⟩ := compared_succeeds fits
  obtain ⟨-,-,shows_⟩ := compared_facts read
  simp only [verifyRemoved,Call.alone_bind,Call.alone_settle,ensure_ok]
  refine ⟨current,_,read,⟨List.eq_nil_iff_forall_not_mem.mpr fun entry among => ?_,?_,
    List.eq_nil_iff_forall_not_mem.mpr fun entry among => ?_⟩,rfl⟩
  · obtain ⟨container,member,_,named⟩ := (shows_.containers entry).mp among
    exact bare.containers container member named
  · cases same : current.networkId with
    | none => rfl
    | some id =>
      obtain ⟨network,member,named,_⟩ := shows_.network.there id same
      exact absurd named (bare.networks network member)
  · obtain ⟨volume,member,_,⟨container,there,named,_⟩ | named⟩ := (shows_.volumes entry).mp among
    · exact bare.containers container there named
    · exact bare.images volume member named

/-- What goes by a name of the installation is recorded, and so is cleared. -/
theorem Matches.bare (fits : Matches installation expected docker) : Bare installation (cleared expected docker) := by
  refine ⟨fun container member named => ?_,fun network member named => ?_,fun volume member named => ?_⟩
  · obtain ⟨there,stays⟩ := Docker.mem_keep_containers.mp member
    have recorded : expected.recordsName container = true := decide_eq_true
      (List.mem_map_of_mem (Entries.mem_of_lookup (fits.containers container there named).2))
    simp [recorded] at stays
  · obtain ⟨there,stays⟩ := Docker.mem_keep_networks.mp member
    have recorded : expected.recordsNetwork network = true := decide_eq_true (fits.network network there named).2
    simp [recorded] at stays
  · obtain ⟨there,stays⟩ := Docker.mem_keep_volumes.mp member
    have recorded : expected.recordsVolume volume = true := decide_eq_true
      (List.mem_map_of_mem (Entries.mem_of_lookup (fits.volumes volume there (.inr named))))
    simp [recorded] at stays

/-- The state after the containers are removed, and after the network is. -/
def Machine.dropContainers (machine : Machine) (expected : Resources) : Machine :=
  machine.keepContainers fun container => !expected.recordsName container

def Machine.dropNetworks (machine : Machine) (expected : Resources) : Machine :=
  (machine.dropContainers expected).keepNetworks fun network => !expected.recordsNetwork network

theorem dropAll_eq (machine : Machine) (expected : Resources) :
    ((machine.dropNetworks expected).keepVolumes fun volume => !expected.recordsVolume volume) =
      { machine with docker := cleared expected machine.docker } := by
  refine congrArg (Machine.mk · machine.retired) ?_
  rw [Machine.dropNetworks,Machine.keepNetworks,Machine.dropContainers,Machine.keepContainers,Docker.keep_keep,Docker.keep_keep,cleared]
  exact Docker.keep_congr (by simp) (by simp) (by simp)

theorem free_iff : Free expected machine.docker ↔
    (∀ network ∈ machine.docker.networks, expected.recordsNetwork network = true →
      (machine.dropContainers expected).docker.members network = []) ∧
    ∀ volume ∈ machine.docker.volumes, expected.recordsVolume volume = true →
      (machine.dropNetworks expected).docker.users volume.name = [] := by
  have stay : ∀ {container : Container}, container ∈ (machine.dropContainers expected).docker.containers ↔
      container ∈ machine.docker.containers ∧ expected.recordsName container = false :=
    Docker.mem_keep_containers.trans (and_congr_right' (by simp))
  have also : ∀ {container : Container}, container ∈ (machine.dropNetworks expected).docker.containers ↔
      container ∈ machine.docker.containers ∧ expected.recordsName container = false :=
    Docker.mem_keep_containers.trans ((and_iff_left rfl).trans stay)
  constructor
  · intro free
    refine ⟨fun network member recorded => ?_,fun volume member recorded => ?_⟩
    · refine List.eq_nil_iff_forall_not_mem.mpr fun id among => ?_
      obtain ⟨container,there,joined,_⟩ := Docker.mem_members.mp among
      exact free.network container (stay.mp there).1 (stay.mp there).2 network member recorded joined
    · refine List.eq_nil_iff_forall_not_mem.mpr fun id among => ?_
      obtain ⟨container,there,uses,_⟩ := Docker.mem_users.mp among
      rw [free.volumes container (also.mp there).1 (also.mp there).2 volume member recorded] at uses
      cases uses
  · rintro ⟨networks,volumes⟩
    refine ⟨fun container there stays network member recorded joined => ?_,fun container there stays volume member recorded => ?_⟩
    · have among : container.id ∈ (machine.dropContainers expected).docker.members network :=
        Docker.mem_members.mpr ⟨container,stay.mpr ⟨there,stays⟩,joined,rfl⟩
      rw [networks network member recorded] at among
      cases among
    · refine Bool.eq_false_of_not_eq_true fun uses => ?_
      have among : container.id ∈ (machine.dropNetworks expected).docker.users volume.name :=
        Docker.mem_users.mpr ⟨container,also.mpr ⟨there,stays⟩,uses,rfl⟩
      rw [volumes volume member recorded] at among
      cases among

theorem removeContainers_all (ours : ∀ entry ∈ expected.containers, entry.1 ∈ containerNames installation)
    (fits : Matches installation expected machine.docker) (alone : Exclusive expected machine.docker) {u : Unit} :
    Alone exec (removeContainers installation expected expected.containers) machine u after ↔
      after = machine.dropContainers expected := by
  rw [alone_removeContainers (.start ours) fits alone]
  refine Eq.congr_right (congrArg machine.keepContainers (funext fun container => ?_))
  simp [Resources.recordsName]

theorem removeVolumes_all (alone : Exclusive expected machine.docker) {u : Unit} :
    Alone exec (removeVolumes expected expected.volumes) machine u after ↔
      (∀ volume ∈ machine.docker.volumes, expected.recordsVolume volume = true → machine.docker.users volume.name = []) ∧
        after = machine.keepVolumes fun volume => !expected.recordsVolume volume := by
  rw [alone_removeVolumes alone]
  simp [Resources.recordsVolume]

theorem drop_dropContainers (machine : Machine) (expected : Resources) :
    Drop expected machine.docker (fun container => !expected.recordsName container) (fun _ => true) fun _ => true :=
  ⟨fun _ _ gone => by simpa using gone,nofun,nofun,nofun⟩

theorem alone_remove (ours : ∀ entry ∈ expected.containers, entry.1 ∈ containerNames installation) {u : Unit} :
    Alone exec (remove installation expected) machine u after ↔ Matches installation expected machine.docker ∧
      Exclusive expected machine.docker ∧ Free expected machine.docker ∧
        after = { machine with docker := cleared expected machine.docker } := by
  simp only [remove,Call.alone_bind]
  constructor
  · rintro ⟨_,_,read,_,_,checked,_,_,containers,_,_,again,_,_,also,_,_,network,_,_,volumes,verified⟩
    obtain ⟨rfl,fits,_⟩ := compared_facts read
    obtain ⟨alone,rfl⟩ := alone_exclusive.mp checked
    obtain rfl := (removeContainers_all ours fits alone).mp containers
    obtain ⟨rfl,_,_⟩ := compared_facts again
    obtain ⟨still,rfl⟩ := alone_exclusive.mp also
    obtain ⟨members,rfl⟩ := alone_removeNetwork.mp network
    obtain ⟨users,rfl⟩ := (removeVolumes_all (still.keep _ _ _)).mp volumes
    obtain rfl := verifyRemoved_facts verified
    refine ⟨fits,alone,free_iff.mpr ⟨fun network member => ?_,fun volume member => ?_⟩,dropAll_eq machine expected⟩
    · exact members network (Docker.mem_keep_networks.mpr ⟨member,rfl⟩)
    · exact users volume (Docker.mem_keep_volumes.mpr ⟨Docker.mem_keep_volumes.mpr ⟨member,rfl⟩,rfl⟩)
  · rintro ⟨fits,alone,free,rfl⟩
    obtain ⟨members,users⟩ := free_iff.mp free
    have fits_ : Matches installation expected (machine.dropContainers expected).docker := fits.drop (drop_dropContainers machine expected)
    have alone_ : Exclusive expected (machine.dropContainers expected).docker := alone.keep _ _ _
    have last : Drop expected machine.docker (fun container => !expected.recordsName container)
        (fun network => !expected.recordsNetwork network) fun volume => !expected.recordsVolume volume := by
      refine ⟨fun _ _ gone => by simpa using gone,fun _ _ gone => by simpa using gone,fun _ _ gone => by simpa using gone,?_⟩
      intro volume member gone container there stays
      exact free.volumes container there (by simpa using stays) volume member (by simpa using gone)
    obtain ⟨_,read⟩ := compared_succeeds fits
    obtain ⟨_,again⟩ := compared_succeeds fits_
    refine ⟨_,_,read,⟨⟩,_,alone_exclusive.mpr ⟨alone,rfl⟩,⟨⟩,_,(removeContainers_all ours fits alone).mpr rfl,_,_,again,⟨⟩,_,
      alone_exclusive.mpr ⟨alone_,rfl⟩,⟨⟩,machine.dropNetworks expected,alone_removeNetwork.mpr ⟨?_,rfl⟩,⟨⟩,_,
      (removeVolumes_all (alone_.keep _ _ _)).mpr ⟨?_,(dropAll_eq machine expected).symm⟩,
      verifyRemoved_succeeds (fits.drop last) fits.bare⟩
    · exact fun network member => members network (Docker.mem_keep_networks.mp member).1
    · exact fun volume member => users volume (Docker.mem_keep_volumes.mp (Docker.mem_keep_volumes.mp member).1).1
end

end Proofstorm.Retirement
