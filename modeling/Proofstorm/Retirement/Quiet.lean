import Proofstorm.Retirement.Daemon

/-!
The checks of a retirement, left alone. They succeed exactly on the states that `Passes`
describes: everything that goes by a name of the installation is what the receipt
records, and nothing foreign uses what is recorded.
-/
namespace Proofstorm.Retirement
open Proofstorm.Core (Json)
open Proofstorm.Interleaving
open Proofstorm.Interleaving.Call (Alone)

section
variable {machine after : Machine}

variable {α : Type} {names : List String} {docker : Docker} {volumes result : List (String × Json)}
  {mounts : List Mount} {found : Found}

theorem answered_ok {value : Option α} {answer : α} :
    answered machine value = .ok (answer,after) ↔ value = some answer ∧ machine = after := by
  cases value <;> simp [answered]

theorem alone_inspectVolume {name : String} {volume : Volume} : Alone exec (run (.inspectVolume name)) machine volume after ↔
    machine.docker.volumeAt name = some volume ∧ machine = after := Call.alone_submit.trans answered_ok

theorem alone_inspectContainer {name : String} {inspection : ContainerInspection} :
    Alone exec (run (.inspectContainer name)) machine inspection after ↔
      (∃ container, machine.docker.containerAt name = some container ∧
        inspection = ⟨some container.id,container.owner,container.cluster,some container.mounts⟩) ∧ machine = after := by
  refine Call.alone_submit.trans (answered_ok.trans (and_congr_left' (Option.map_eq_some_iff.trans ?_)))
  simp only [eq_comm]

theorem alone_inspectNetwork {name : String} {inspection : NetworkInspection} :
    Alone exec (run (.inspectNetwork name)) machine inspection after ↔
      (∃ network, machine.docker.networkAt name = some network ∧
        inspection = ⟨some network.id,network.app,some (machine.docker.members network)⟩) ∧ machine = after := by
  refine Call.alone_submit.trans (answered_ok.trans (and_congr_left' (Option.map_eq_some_iff.trans ?_)))
  simp only [eq_comm]

theorem listed_ok {list answer : α} :
    (Except.ok (list,machine) : Except Failure (α × Machine)) = .ok (answer,after) ↔ list = answer ∧ machine = after := by
  simp

theorem alone_info {id : String} :
    Alone exec (run .info) machine id after ↔ machine.docker.daemonId = id ∧ machine = after :=
  Call.alone_submit.trans listed_ok

theorem alone_containerNames : Alone exec (run .containerNames) machine names after ↔
    machine.docker.containers.map Container.name = names ∧ machine = after := Call.alone_submit.trans listed_ok

theorem alone_networkNames : Alone exec (run .networkNames) machine names after ↔
    machine.docker.networks.map Network.name = names ∧ machine = after := Call.alone_submit.trans listed_ok

theorem alone_networkIds {ids : List String} : Alone exec (run .networkIds) machine ids after ↔
    machine.docker.networks.map Network.id = ids ∧ machine = after := Call.alone_submit.trans listed_ok

theorem alone_volumeNames : Alone exec (run .volumeNames) machine names after ↔
    machine.docker.volumes.map Volume.name = names ∧ machine = after := Call.alone_submit.trans listed_ok

theorem alone_volumeUsers {name : String} {ids : List String} : Alone exec (run (.volumeUsers name)) machine ids after ↔
    machine.docker.users name = ids ∧ machine = after := Call.alone_submit.trans listed_ok

/-! ### The snapshot -/

/-- The entry of a volume in a receipt. -/
def Volume.entry (volume : Volume) : String × Json := (volume.name,volumeIdentity volume)

def Container.entry (container : Container) : String × String := (container.name,container.id)

/-- The mount is one of this volume. -/
def Mount.Of (mount : Mount) (volume : String) : Prop := mount.kind = "volume" ∧ mount.name = some volume

theorem uses_iff {container : Container} {volume : String} :
    container.uses volume = true ↔ ∃ mount ∈ container.mounts, mount.Of volume := by
  simp [Container.uses,Mount.Of]

/-- Volumes that are there, with their entries. -/
def Accurate (docker : Docker) (volumes : List (String × Json)) : Prop :=
  ∀ entry ∈ volumes, ∃ volume ∈ docker.volumes, entry = volume.entry

/-- The mounted volumes are there, and their creation is known. -/
def MountsKnown (docker : Docker) (mounts : List Mount) : Prop :=
  ∀ mount ∈ mounts, mount.kind = "volume" →
    ∃ volume ∈ docker.volumes, mount.name = some volume.name ∧ volume.createdAt.isSome = true

theorem mem_insertEntry_accurate (accurate : Accurate docker volumes)
    {volume : Volume} (member : volume ∈ docker.volumes) {entry : String × Json} :
    entry ∈ insertEntry volume.name (volumeIdentity volume) volumes ↔ entry = volume.entry ∨ entry ∈ volumes := by
  rw [mem_insertEntry]
  constructor
  · rintro (same | ⟨among,_⟩)
    · exact .inl same
    · exact .inr among
  · rintro (same | among)
    · exact .inl same
    · obtain ⟨other,there,rfl⟩ := accurate entry among
      by_cases same : other.name = volume.name
      · exact .inl (by rw [Docker.volume_eq there member same]; rfl)
      · exact .inr ⟨among,same⟩

theorem alone_readVolume {name missing : String} :
    Alone exec (readVolume name missing volumes) machine result after ↔
      ∃ volume ∈ machine.docker.volumes, volume.name = name ∧ volume.createdAt.isSome = true ∧
        insertEntry volume.name (volumeIdentity volume) volumes = result ∧ machine = after := by
  simp only [readVolume,Call.alone_bind,Call.alone_settle,Call.alone_pure,ensure_ok]
  constructor
  · rintro ⟨volume,_,inspected,_,_,⟨created,rfl⟩,rfl,same⟩
    obtain ⟨found,rfl⟩ := alone_inspectVolume.mp inspected
    obtain ⟨member,rfl⟩ := Docker.volumeAt_iff.mp found
    exact ⟨volume,member,rfl,created,rfl,same⟩
  · rintro ⟨volume,member,rfl,created,rfl,rfl⟩
    exact ⟨volume,machine,alone_inspectVolume.mpr ⟨Docker.volumeAt_iff.mpr ⟨member,rfl⟩,rfl⟩,⟨⟩,machine,⟨created,rfl⟩,rfl,rfl⟩

theorem readMounts_facts (accurate : Accurate machine.docker volumes)
    (ended : Alone exec (readMounts mounts volumes) machine result after) :
    machine = after ∧ MountsKnown machine.docker mounts ∧ ∀ entry, entry ∈ result ↔
      entry ∈ volumes ∨ ∃ volume ∈ machine.docker.volumes, entry = volume.entry ∧ ∃ mount ∈ mounts, mount.Of volume.name := by
  induction mounts generalizing volumes with
  | nil =>
    obtain ⟨rfl,same⟩ := Call.alone_pure.mp ended
    exact ⟨same,by simp [MountsKnown],by simp⟩
  | cons mount rest ih =>
    rw [readMounts] at ended
    split at ended
    · next other =>
      obtain ⟨same,known,result⟩ := ih accurate ended
      refine ⟨same,List.forall_mem_cons.mpr ⟨fun kind => absurd kind other,known⟩,fun entry => ?_⟩
      simp [result entry,Mount.Of,other]
    · next kind =>
      have kind : mount.kind = "volume" := not_not.mp kind
      simp only [Call.alone_bind,Call.alone_settle,require_ok,alone_readVolume] at ended
      obtain ⟨name,_,⟨named,rfl⟩,_,_,⟨volume,member,rfl,created,rfl,rfl⟩,last⟩ := ended
      have more : Accurate machine.docker (insertEntry volume.name (volumeIdentity volume) volumes) := by
        intro entry among
        rcases (mem_insertEntry_accurate accurate member).mp among with rfl | among
        · exact ⟨volume,member,rfl⟩
        · exact accurate entry among
      obtain ⟨same,known,result⟩ := ih more last
      refine ⟨same,List.forall_mem_cons.mpr ⟨fun _ => ⟨volume,member,named,created⟩,known⟩,fun entry => ?_⟩
      rw [result entry,mem_insertEntry_accurate accurate member]
      constructor
      · rintro ((rfl | among) | ⟨other,there,rfl,mounted,also,of⟩)
        · exact .inr ⟨volume,member,rfl,mount,List.mem_cons_self,kind,named⟩
        · exact .inl among
        · exact .inr ⟨other,there,rfl,mounted,List.mem_cons_of_mem _ also,of⟩
      · rintro (among | ⟨other,there,rfl,mounted,also,of⟩)
        · exact .inl (.inr among)
        · rcases List.mem_cons.mp also with rfl | also
          · have same : volume.name = other.name := Option.some.inj (named.symm.trans of.2)
            rw [Docker.volume_eq member there same]
            exact .inl (.inl rfl)
          · exact .inr ⟨other,there,rfl,mounted,also,of⟩

theorem readMounts_succeeds (known : MountsKnown machine.docker mounts) (volumes : List (String × Json)) :
    ∃ result, Alone exec (readMounts mounts volumes) machine result machine := by
  induction mounts generalizing volumes with
  | nil => exact ⟨volumes,Call.alone_pure.mpr ⟨rfl,rfl⟩⟩
  | cons mount rest ih =>
    obtain ⟨here,known⟩ := List.forall_mem_cons.mp known
    rw [readMounts]
    split
    · exact ih known volumes
    · next kind =>
      obtain ⟨volume,member,named,created⟩ := here (not_not.mp kind)
      obtain ⟨result,last⟩ := ih known (insertEntry volume.name (volumeIdentity volume) volumes)
      refine ⟨result,?_⟩
      simp only [Call.alone_bind,Call.alone_settle,require_ok,alone_readVolume]
      exact ⟨_,_,⟨named,rfl⟩,_,_,⟨volume,member,rfl,created,rfl,rfl⟩,last⟩

/-- A container that the snapshot can read. -/
structure Readable (installation : Installation) (docker : Docker) (container : Container) : Prop where
  owned : owned installation container.name container.owner container.cluster
  id : container.id ≠ ""
  mounts : MountsKnown docker container.mounts

/-- What is there under some names. -/
structure Sees (docker : Docker) (names : List String) (found : Found) : Prop where
  containers : ∀ entry, entry ∈ found.1 ↔ ∃ container ∈ docker.containers, entry = container.entry ∧ container.name ∈ names
  volumes : ∀ entry, entry ∈ found.2 ↔ ∃ volume ∈ docker.volumes, entry = volume.entry ∧
    ∃ container ∈ docker.containers, container.name ∈ names ∧ container.uses volume.name = true

theorem Sees.accurate (sees : Sees docker names found) :
    Accurate docker found.2 := by
  intro entry among
  obtain ⟨volume,member,same,_⟩ := (sees.volumes entry).mp among
  exact ⟨volume,member,same⟩

theorem Sees.absent (sees : Sees docker names found) {name : String}
    (absent : name ∉ docker.containers.map Container.name) : Sees docker (name :: names) found := by
  have other : ∀ container ∈ docker.containers, (container.name ∈ name :: names ↔ container.name ∈ names) := by
    intro container member
    refine List.mem_cons.trans (or_iff_right ?_)
    rintro rfl
    exact absent (List.mem_map_of_mem member)
  refine ⟨fun entry => (sees.containers entry).trans ?_,fun entry => (sees.volumes entry).trans ?_⟩
  · exact exists_congr fun container => and_congr_right fun member => and_congr_right' (other container member).symm
  · exact exists_congr fun volume => and_congr_right' (and_congr_right' (exists_congr fun container =>
      and_congr_right fun member => and_congr_left' (other container member).symm))

theorem Sees.congr {others : List String} (sees : Sees docker names found)
    (same : ∀ name, name ∈ names ↔ name ∈ others) : Sees docker others found := by
  refine ⟨fun entry => (sees.containers entry).trans ?_,fun entry => (sees.volumes entry).trans ?_⟩
  all_goals simp only [same]

section
variable {installation : Installation}

theorem readContainer_facts {name : String} (dash : '-' ∈ name.toList) {names : List String} {found result : Found}
    (sees : Sees machine.docker names found) (ended : Alone exec (readContainer installation name found) machine result after) :
    machine = after ∧ Sees machine.docker (name :: names) result ∧
      ∀ container ∈ machine.docker.containers, container.name = name → Readable installation machine.docker container := by
  simp only [readContainer,Call.alone_bind,Call.alone_settle,Call.alone_pure,ensure_ok,require_ok] at ended
  obtain ⟨_,_,inspected,_,_,⟨own,rfl⟩,_,_,⟨id,rfl⟩,_,_,⟨present,rfl⟩,_,_,⟨mounts,rfl⟩,volumes,_,read,rfl,rfl⟩ := ended
  obtain ⟨⟨container,found_,rfl⟩,rfl⟩ := alone_inspectContainer.mp inspected
  obtain ⟨member,rfl⟩ := (Docker.containerAt_name dash).mp found_
  obtain rfl := Option.some.inj id
  obtain rfl := Option.some.inj mounts
  obtain ⟨rfl,known,entries⟩ := readMounts_facts sees.accurate read
  have only : ∀ other ∈ machine.docker.containers, other.name = container.name → other = container :=
    fun other there same => Docker.container_eq there member same
  refine ⟨rfl,⟨fun entry => ?_,fun entry => ?_⟩,fun other there same => only other there same ▸ ⟨own,present,known⟩⟩
  · change entry ∈ insertEntry container.name container.id found.1 ↔ _
    rw [mem_insertEntry,sees.containers]
    constructor
    · rintro (rfl | ⟨⟨other,there,rfl,among⟩,_⟩)
      · exact ⟨container,member,rfl,List.mem_cons_self⟩
      · exact ⟨other,there,rfl,List.mem_cons_of_mem _ among⟩
    · rintro ⟨other,there,rfl,among⟩
      by_cases same : other.name = container.name
      · exact .inl (by rw [only other there same]; rfl)
      · exact .inr ⟨⟨other,there,rfl,(List.mem_cons.mp among).resolve_left same⟩,same⟩
  · change entry ∈ volumes ↔ _
    rw [entries,sees.volumes]
    constructor
    · rintro (⟨volume,there,rfl,other,among,listed,uses⟩ | ⟨volume,there,rfl,mount,mounted,of⟩)
      · exact ⟨volume,there,rfl,other,among,List.mem_cons_of_mem _ listed,uses⟩
      · exact ⟨volume,there,rfl,container,member,List.mem_cons_self,uses_iff.mpr ⟨mount,mounted,of⟩⟩
    · rintro ⟨volume,there,rfl,other,among,listed,uses⟩
      rcases List.mem_cons.mp listed with same | listed
      · obtain rfl := only other among same
        obtain ⟨mount,mounted,of⟩ := uses_iff.mp uses
        exact .inr ⟨volume,there,rfl,mount,mounted,of⟩
      · exact .inl ⟨volume,there,rfl,other,among,listed,uses⟩

theorem readContainer_succeeds {container : Container} (dash : '-' ∈ container.name.toList)
    (member : container ∈ machine.docker.containers) (readable : Readable installation machine.docker container) (found : Found) :
    ∃ result, Alone exec (readContainer installation container.name found) machine result machine := by
  obtain ⟨volumes,read⟩ := readMounts_succeeds readable.mounts found.2
  refine ⟨(insertEntry container.name container.id found.1,volumes),?_⟩
  simp only [readContainer,Call.alone_bind,Call.alone_settle,Call.alone_pure,ensure_ok,require_ok]
  exact ⟨_,_,alone_inspectContainer.mpr ⟨⟨container,(Docker.containerAt_name dash).mpr ⟨member,rfl⟩,rfl⟩,rfl⟩,
    ⟨⟩,_,⟨readable.owned,rfl⟩,_,_,⟨rfl,rfl⟩,⟨⟩,_,⟨readable.id,rfl⟩,_,_,⟨rfl,rfl⟩,_,_,read,rfl,rfl⟩

variable {rest : List String}

theorem readContainers_facts (dash : ∀ name ∈ rest, '-' ∈ name.toList) {names : List String}
    {found result : Found} (sees : Sees machine.docker names found)
    (ended : Alone exec (readContainers installation (machine.docker.containers.map Container.name) rest found)
      machine result after) : machine = after ∧ Sees machine.docker (rest ++ names) result ∧
      ∀ container ∈ machine.docker.containers, container.name ∈ rest → Readable installation machine.docker container := by
  induction rest generalizing names found with
  | nil =>
    obtain ⟨rfl,same⟩ := Call.alone_pure.mp ended
    exact ⟨same,sees,by simp⟩
  | cons name rest ih =>
    obtain ⟨here,dash⟩ := List.forall_mem_cons.mp dash
    have moved : ∀ {other : Found}, Sees machine.docker (rest ++ name :: names) other →
        Sees machine.docker (name :: rest ++ names) other := fun sees => sees.congr (by simp; tauto)
    rw [readContainers] at ended
    split at ended
    · next present =>
      obtain ⟨between,_,first,last⟩ := Call.alone_bind.mp ended
      obtain ⟨rfl,sees,readable⟩ := readContainer_facts here sees first
      obtain ⟨same,sees,others⟩ := ih dash sees last
      refine ⟨same,moved sees,fun container member among => ?_⟩
      rcases List.mem_cons.mp among with named | among
      · exact readable container member named
      · exact others container member among
    · next absent =>
      obtain ⟨same,sees,others⟩ := ih dash (sees.absent absent) ended
      refine ⟨same,moved sees,fun container member among => others container member ?_⟩
      refine (List.mem_cons.mp among).resolve_left ?_
      rintro rfl
      exact absent (List.mem_map_of_mem member)

theorem readContainers_succeeds (dash : ∀ name ∈ rest, '-' ∈ name.toList)
    (readable : ∀ container ∈ machine.docker.containers, container.name ∈ rest → Readable installation machine.docker container)
    (found : Found) : ∃ result, Alone exec (readContainers installation (machine.docker.containers.map Container.name) rest found)
      machine result machine := by
  induction rest generalizing found with
  | nil => exact ⟨found,Call.alone_pure.mpr ⟨rfl,rfl⟩⟩
  | cons name rest ih =>
    obtain ⟨here,dash⟩ := List.forall_mem_cons.mp dash
    have others := ih dash fun container member among => readable container member (List.mem_cons_of_mem _ among)
    rw [readContainers]
    split
    · next present =>
      obtain ⟨container,member,rfl⟩ := List.mem_map.mp present
      obtain ⟨between,first⟩ := readContainer_succeeds here member (readable container member List.mem_cons_self) found
      obtain ⟨result,last⟩ := others between
      exact ⟨result,Call.alone_bind.mpr ⟨between,machine,first,last⟩⟩
    · exact others found

/-- The network of the installation's name, with its id. -/
structure SeesNetwork (installation : Installation) (docker : Docker) (networkId : Option String) : Prop where
  named : ∀ network ∈ docker.networks, network.name = installation.networkName →
    network.app = some "k3d" ∧ networkId = some network.id
  there : ∀ id, networkId = some id → ∃ network ∈ docker.networks, network.name = installation.networkName ∧ network.id = id

theorem readNetwork_facts {result : Option String}
    (ended : Alone exec (readNetwork installation (machine.docker.networks.map Network.name)) machine result after) :
    machine = after ∧ SeesNetwork installation machine.docker result := by
  rw [readNetwork,Call.alone_ite] at ended
  split at ended
  · simp only [Call.alone_bind,Call.alone_settle,Call.alone_pure,ensure_ok,require_ok] at ended
    obtain ⟨_,_,inspected,_,_,⟨app,rfl⟩,_,_,⟨id,rfl⟩,rfl,rfl⟩ := ended
    obtain ⟨⟨network,found,rfl⟩,rfl⟩ := alone_inspectNetwork.mp inspected
    obtain rfl := Option.some.inj id
    have only : machine.docker.networks.filter (·.name == installation.networkName) = [network] :=
      (Docker.networkAt_name installation.context_dash).mp found
    have here : network ∈ machine.docker.networks.filter (·.name == installation.networkName) := only ▸ List.mem_singleton_self _
    obtain ⟨member,named⟩ := List.mem_filter.mp here
    refine ⟨rfl,fun other there same => ?_,?_⟩
    · have among : other ∈ machine.docker.networks.filter (·.name == installation.networkName) :=
        List.mem_filter.mpr ⟨there,beq_iff_eq.mpr same⟩
      rw [only] at among
      rw [List.mem_singleton.mp among]
      exact ⟨app,rfl⟩
    · rintro _ ⟨⟩
      exact ⟨network,member,beq_iff_eq.mp named,rfl⟩
  · next absent =>
    obtain ⟨rfl,same⟩ := Call.alone_pure.mp ended
    exact ⟨same,fun network member named => absurd (List.mem_map.mpr ⟨network,member,named⟩) absent,
      fun _ same => by cases same⟩

theorem readNetwork_succeeds {recorded : Option String} (named : ∀ network ∈ machine.docker.networks,
      network.name = installation.networkName → network.app = some "k3d" ∧ recorded = some network.id) :
    ∃ result, Alone exec (readNetwork installation (machine.docker.networks.map Network.name)) machine result machine := by
  rw [readNetwork]
  split
  · next present =>
    obtain ⟨network,member,same⟩ := List.mem_map.mp present
    have found : machine.docker.networkAt installation.networkName = some network := by
      refine (Docker.networkAt_name installation.context_dash).mpr (Docker.networks_named member same fun other there also => ?_)
      exact Option.some.inj ((named other there also).2.symm.trans (named network member same).2)
    refine ⟨some network.id,?_⟩
    simp only [Call.alone_bind,Call.alone_settle,Call.alone_pure,ensure_ok,require_ok]
    exact ⟨_,_,alone_inspectNetwork.mpr ⟨⟨network,found,rfl⟩,rfl⟩,⟨⟩,_,⟨(named network member same).1,rfl⟩,_,_,⟨rfl,rfl⟩,rfl,rfl⟩
  · exact ⟨none,Call.alone_pure.mpr ⟨rfl,rfl⟩⟩

/-- The image volume, if it is there, with known creation. -/
def ImagesKnown (installation : Installation) (docker : Docker) : Prop :=
  ∀ volume ∈ docker.volumes, volume.name = installation.imageVolume → volume.createdAt.isSome = true

theorem readImages_facts (accurate : Accurate machine.docker volumes)
    (ended : Alone exec (readImages installation volumes) machine result after) :
    machine = after ∧ ImagesKnown installation machine.docker ∧ ∀ entry, entry ∈ result ↔
      entry ∈ volumes ∨ ∃ volume ∈ machine.docker.volumes, entry = volume.entry ∧ volume.name = installation.imageVolume := by
  obtain ⟨_,_,listed,ended⟩ := Call.alone_bind.mp ended
  obtain ⟨rfl,rfl⟩ := alone_volumeNames.mp listed
  rw [Call.alone_ite] at ended
  split at ended
  · obtain ⟨volume,member,named,created,rfl,same⟩ := alone_readVolume.mp ended
    have only : ∀ other ∈ machine.docker.volumes, other.name = installation.imageVolume → other = volume :=
      fun other there same => Docker.volume_eq there member (same.trans named.symm)
    refine ⟨same,fun other there same => only other there same ▸ created,fun entry => ?_⟩
    rw [mem_insertEntry_accurate accurate member,or_comm]
    refine or_congr_right ⟨?_,?_⟩
    · rintro rfl
      exact ⟨volume,member,rfl,named⟩
    · rintro ⟨other,there,rfl,same⟩
      rw [only other there same]
  · next absent =>
    obtain ⟨rfl,same⟩ := Call.alone_pure.mp ended
    have none_ : ∀ volume ∈ machine.docker.volumes, volume.name ≠ installation.imageVolume :=
      fun volume member named => absent (List.mem_map.mpr ⟨volume,member,named⟩)
    refine ⟨same,fun volume member named => absurd named (none_ volume member),fun entry => (or_iff_left ?_).symm⟩
    rintro ⟨volume,member,_,named⟩
    exact none_ volume member named

theorem readImages_succeeds (known : ImagesKnown installation machine.docker) (volumes : List (String × Json)) :
    ∃ result, Alone exec (readImages installation volumes) machine result machine := by
  suffices ∃ result, Alone exec (if installation.imageVolume ∈ machine.docker.volumes.map Volume.name then
      readVolume installation.imageVolume "image volume creation identity missing" volumes else pure volumes)
      machine result machine from
    this.imp fun result ended => Call.alone_bind.mpr ⟨_,_,alone_volumeNames.mpr ⟨rfl,rfl⟩,ended⟩
  split
  · next present =>
    obtain ⟨volume,member,named⟩ := List.mem_map.mp present
    exact ⟨_,alone_readVolume.mpr ⟨volume,member,named,known volume member named,rfl,rfl⟩⟩
  · exact ⟨volumes,Call.alone_pure.mpr ⟨rfl,rfl⟩⟩

/-- A volume that the snapshot sees: one in use by a container of the installation, or the image volume. -/
def Seen (installation : Installation) (docker : Docker) (volume : Volume) : Prop :=
  (∃ container ∈ docker.containers, container.name ∈ containerNames installation ∧ container.uses volume.name = true) ∨
    volume.name = installation.imageVolume

/-- The snapshot of a daemon. -/
structure Shows (installation : Installation) (docker : Docker) (current : Resources) : Prop where
  installationId : current.installationId = installation.id
  daemonId : current.daemonId = docker.daemonId
  network : SeesNetwork installation docker current.networkId
  containers : ∀ entry, entry ∈ current.containers ↔
    ∃ container ∈ docker.containers, entry = container.entry ∧ container.name ∈ containerNames installation
  volumes : ∀ entry, entry ∈ current.volumes ↔ ∃ volume ∈ docker.volumes, entry = volume.entry ∧ Seen installation docker volume

theorem snapshot_facts {current : Resources} (ended : Alone exec (snapshot installation) machine current after) :
    machine = after ∧ machine.docker.daemonId ≠ "" ∧ Shows installation machine.docker current ∧
      ImagesKnown installation machine.docker ∧ ∀ container ∈ machine.docker.containers,
        container.name ∈ containerNames installation → Readable installation machine.docker container := by
  simp only [snapshot,Call.alone_bind,Call.alone_settle,Call.alone_pure,ensure_ok] at ended
  obtain ⟨_,_,info,_,_,⟨present,rfl⟩,_,_,names,_,_,networks,networkId,_,network,found,_,containers,volumes,_,images,rfl,rfl⟩ := ended
  obtain ⟨rfl,rfl⟩ := alone_info.mp info
  obtain ⟨rfl,rfl⟩ := alone_containerNames.mp names
  obtain ⟨rfl,rfl⟩ := alone_networkNames.mp networks
  obtain ⟨rfl,sees⟩ := readNetwork_facts network
  have nothing : Sees machine.docker [] (([],[]) : Found) := ⟨by simp,by simp⟩
  obtain ⟨rfl,all,readable⟩ := readContainers_facts (fun _ member => containerNames_dash member) nothing containers
  rw [List.append_nil] at all
  obtain ⟨rfl,known,entries⟩ := readImages_facts all.accurate images
  refine ⟨rfl,present,⟨rfl,rfl,sees,all.containers,fun entry => ?_⟩,known,readable⟩
  refine (entries entry).trans ?_
  rw [all.volumes,← exists_or]
  refine exists_congr fun volume => ?_
  rw [← and_or_left,← and_or_left]
  rfl

theorem snapshot_succeeds (present : machine.docker.daemonId ≠ "") {recorded : Option String}
    (named : ∀ network ∈ machine.docker.networks, network.name = installation.networkName →
      network.app = some "k3d" ∧ recorded = some network.id)
    (readable : ∀ container ∈ machine.docker.containers, container.name ∈ containerNames installation →
      Readable installation machine.docker container)
    (known : ImagesKnown installation machine.docker) : ∃ current, Alone exec (snapshot installation) machine current machine := by
  obtain ⟨networkId,network⟩ := readNetwork_succeeds named
  obtain ⟨found,containers⟩ := readContainers_succeeds (fun _ member => containerNames_dash member) readable ([],[])
  obtain ⟨volumes,images⟩ := readImages_succeeds known found.2
  refine ⟨⟨1,installation.id,machine.docker.daemonId,found.1,networkId,volumes⟩,?_⟩
  simp only [snapshot,Call.alone_bind,Call.alone_settle,Call.alone_pure,ensure_ok]
  exact ⟨_,_,alone_info.mpr ⟨rfl,rfl⟩,⟨⟩,_,⟨present,rfl⟩,_,_,alone_containerNames.mpr ⟨rfl,rfl⟩,_,_,
    alone_networkNames.mpr ⟨rfl,rfl⟩,_,_,network,_,_,containers,_,_,images,rfl,rfl⟩

/-! ### The comparison with the receipt -/

/-- The state is what the receipt records, or what is left of it. -/
structure Matches (installation : Installation) (expected : Resources) (docker : Docker) : Prop where
  daemon : docker.daemonId ≠ "" ∧ expected.installationId = installation.id ∧ expected.daemonId = docker.daemonId
  network : ∀ network ∈ docker.networks, network.name = installation.networkName →
    network.app = some "k3d" ∧ expected.networkId = some network.id
  containers : ∀ container ∈ docker.containers, container.name ∈ containerNames installation →
    Readable installation docker container ∧ expected.containers.lookup container.name = some container.id
  images : ImagesKnown installation docker
  volumes : ∀ volume ∈ docker.volumes, Seen installation docker volume →
    expected.volumes.lookup volume.name = some (volumeIdentity volume)

variable {expected : Resources}

variable {u : Unit}

theorem unchanged_ok {current : Resources} : unchanged expected current = .ok u ↔
    (expected.installationId = current.installationId ∧ expected.daemonId = current.daemonId) ∧
    (∀ entry ∈ current.containers, expected.containers.lookup entry.1 = some entry.2) ∧
    (current.networkId.isSome = true → expected.networkId = current.networkId) ∧
    ∀ entry ∈ current.volumes, expected.volumes.lookup entry.1 = some entry.2 := by
  simp only [unchanged,bind_ok,ensure_ok,sameEntries_ok]
  simp

theorem compared_facts {current : Resources} (ended : Alone exec (compared installation expected) machine current after) :
    machine = after ∧ Matches installation expected machine.docker ∧ Shows installation machine.docker current := by
  simp only [compared,Call.alone_bind,Call.alone_settle,Call.alone_pure] at ended
  obtain ⟨_,_,read,_,_,⟨same,rfl⟩,rfl,rfl⟩ := ended
  obtain ⟨rfl,present,shows_,known,readable⟩ := snapshot_facts read
  obtain ⟨⟨installationId,daemonId⟩,containers,networkId,volumes⟩ := unchanged_ok.mp same
  refine ⟨rfl,⟨⟨present,installationId.trans shows_.installationId,daemonId.trans shows_.daemonId⟩,?_,?_,known,?_⟩,shows_⟩
  · intro network member named
    obtain ⟨app,id⟩ := shows_.network.named network member named
    exact ⟨app,(networkId (by rw [id]; rfl)).trans id⟩
  · exact fun container member among => ⟨readable container member among,
      containers container.entry ((shows_.containers _).mpr ⟨container,member,rfl,among⟩)⟩
  · exact fun volume member seen => volumes volume.entry ((shows_.volumes _).mpr ⟨volume,member,rfl,seen⟩)

theorem compared_succeeds (fits : Matches installation expected machine.docker) :
    ∃ current, Alone exec (compared installation expected) machine current machine := by
  obtain ⟨current,read⟩ := snapshot_succeeds fits.daemon.1 fits.network
    (fun container member among => (fits.containers container member among).1) fits.images
  obtain ⟨-,-,shows_,-⟩ := snapshot_facts read
  refine ⟨current,?_⟩
  simp only [compared,Call.alone_bind,Call.alone_settle,Call.alone_pure]
  refine ⟨_,_,read,⟨⟩,_,⟨unchanged_ok.mpr ⟨⟨?_,?_⟩,?_,?_,?_⟩,rfl⟩,rfl,rfl⟩
  · exact fits.daemon.2.1.trans shows_.installationId.symm
  · exact fits.daemon.2.2.trans shows_.daemonId.symm
  · intro entry among
    obtain ⟨container,member,rfl,named⟩ := (shows_.containers entry).mp among
    exact (fits.containers container member named).2
  · intro some_
    obtain ⟨id,same⟩ := Option.isSome_iff_exists.mp some_
    obtain ⟨network,member,named,rfl⟩ := shows_.network.there id same
    exact (fits.network network member named).2.trans same.symm
  · intro entry among
    obtain ⟨volume,member,rfl,seen⟩ := (shows_.volumes entry).mp among
    exact fits.volumes volume member seen

/-! ### The check of users -/

/-- Only recorded containers use what is recorded, and the recorded volumes are what they were. -/
structure Exclusive (expected : Resources) (docker : Docker) : Prop where
  members : ∀ network ∈ docker.networks, expected.networkId = some network.id → ∀ id ∈ docker.members network, id ∈ expected.ids
  volumes : ∀ entry ∈ expected.volumes, ∀ volume ∈ docker.volumes, volume.name = entry.1 →
    volumeIdentity volume = entry.2 ∧ ∀ id ∈ docker.users volume.name, id ∈ expected.ids

theorem alone_exclusiveNetwork : Alone exec (exclusiveNetwork expected) machine u after ↔
    (∀ network ∈ machine.docker.networks, expected.networkId = some network.id →
      ∀ id ∈ machine.docker.members network, id ∈ expected.ids) ∧ machine = after := by
  rw [exclusiveNetwork]
  cases recorded : expected.networkId with
  | none => simp
  | some id =>
    simp only [exclusiveMembers,Call.alone_bind,Call.alone_ite,Call.alone_settle,Call.alone_pure,ensure_ok,require_ok]
    constructor
    · rintro ⟨_,_,listed,ended⟩
      obtain ⟨rfl,rfl⟩ := alone_networkIds.mp listed
      split at ended
      · next present =>
        obtain ⟨network,member,rfl⟩ := List.mem_map.mp present
        obtain ⟨_,_,inspected,_,_,⟨members,rfl⟩,within,rfl⟩ := ended
        obtain ⟨⟨other,found,rfl⟩,rfl⟩ := alone_inspectNetwork.mp inspected
        obtain rfl := Option.some.inj ((Docker.networkAt_id member).symm.trans found)
        obtain rfl := Option.some.inj members
        refine ⟨fun one there same => ?_,rfl⟩
        rw [Docker.network_eq there member (Option.some.inj same).symm]
        exact within
      · next absent =>
        refine ⟨fun network member same => absurd (List.mem_map.mpr ⟨network,member,?_⟩) absent,ended.2⟩
        exact (Option.some.inj same).symm
    · rintro ⟨within,rfl⟩
      refine ⟨_,_,alone_networkIds.mpr ⟨rfl,rfl⟩,?_⟩
      split
      · next present =>
        obtain ⟨network,member,rfl⟩ := List.mem_map.mp present
        exact ⟨_,_,alone_inspectNetwork.mpr ⟨⟨network,Docker.networkAt_id member,rfl⟩,rfl⟩,_,_,⟨rfl,rfl⟩,
          within network member rfl,rfl⟩
      · exact ⟨True.intro,rfl⟩

theorem alone_exclusiveVolumes :
    Alone exec (exclusiveVolumes expected (machine.docker.volumes.map Volume.name) volumes) machine u after ↔
      (∀ entry ∈ volumes, ∀ volume ∈ machine.docker.volumes, volume.name = entry.1 →
        volumeIdentity volume = entry.2 ∧ ∀ id ∈ machine.docker.users volume.name, id ∈ expected.ids) ∧ machine = after := by
  induction volumes with
  | nil => simp [exclusiveVolumes]
  | cons entry rest ih =>
    obtain ⟨name,identity⟩ := entry
    rw [exclusiveVolumes,Call.alone_ite,List.forall_mem_cons]
    split
    · next present =>
      obtain ⟨volume,member,rfl⟩ := List.mem_map.mp present
      have only : ∀ other ∈ machine.docker.volumes, other.name = volume.name → other = volume :=
        fun other there same => Docker.volume_eq there member same
      simp only [Call.alone_bind,Call.alone_settle,ensure_ok]
      constructor
      · rintro ⟨_,_,inspected,_,_,⟨same,rfl⟩,_,_,asked,_,_,⟨within,rfl⟩,last⟩
        obtain ⟨found,rfl⟩ := alone_inspectVolume.mp inspected
        obtain ⟨there,named⟩ := Docker.volumeAt_iff.mp found
        obtain rfl := only _ there named
        obtain ⟨rfl,rfl⟩ := alone_volumeUsers.mp asked
        obtain ⟨others,same_⟩ := ih.mp last
        exact ⟨⟨fun other there named => only other there named ▸ ⟨same,within⟩,others⟩,same_⟩
      · rintro ⟨⟨here,others⟩,rfl⟩
        obtain ⟨same,within⟩ := here volume member rfl
        exact ⟨_,_,alone_inspectVolume.mpr ⟨Docker.volumeAt_iff.mpr ⟨member,rfl⟩,rfl⟩,⟨⟩,_,⟨same,rfl⟩,_,_,
          alone_volumeUsers.mpr ⟨rfl,rfl⟩,⟨⟩,_,⟨within,rfl⟩,ih.mpr ⟨others,rfl⟩⟩
    · next absent =>
      have none_ : ∀ volume ∈ machine.docker.volumes, volume.name ≠ name :=
        fun volume member named => absent (List.mem_map.mpr ⟨volume,member,named⟩)
      rw [ih]
      constructor
      · rintro ⟨others,same⟩
        exact ⟨⟨fun volume member named => absurd named (none_ volume member),others⟩,same⟩
      · rintro ⟨both,same⟩
        exact ⟨both.2,same⟩

theorem alone_exclusive : Alone exec (exclusive expected) machine u after ↔
    Exclusive expected machine.docker ∧ machine = after := by
  simp only [exclusive,Call.alone_bind,alone_exclusiveNetwork]
  constructor
  · rintro ⟨_,_,⟨members,rfl⟩,_,_,listed,last⟩
    obtain ⟨rfl,rfl⟩ := alone_volumeNames.mp listed
    obtain ⟨volumes,same⟩ := alone_exclusiveVolumes.mp last
    exact ⟨⟨members,volumes⟩,same⟩
  · rintro ⟨alone,rfl⟩
    exact ⟨⟨⟩,_,⟨alone.members,rfl⟩,_,_,alone_volumeNames.mpr ⟨rfl,rfl⟩,alone_exclusiveVolumes.mpr ⟨alone.volumes,rfl⟩⟩
end

end

end Proofstorm.Retirement
