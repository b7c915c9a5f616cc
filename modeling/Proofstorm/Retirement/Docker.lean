import Proofstorm.Core.Json
import Proofstorm.Interleaving

/-!
A Docker daemon as far as retirement uses it: the containers, networks and volumes of
one daemon, and the commands that list, inspect and remove them. A container or network
is found by its id or, failing that, by its name; a volume has only its name. Nothing that
is in use is removed from under its users.
-/
namespace Proofstorm.Retirement
open Proofstorm.Core (Json)
open Proofstorm.Interleaving

structure Mount where
  kind : String
  name : Option String
  deriving DecidableEq

structure Container where
  id : String
  name : String
  /-- Its label `proofstorm.dev/installation`, empty where there is none. -/
  owner : String
  /-- Its label `k3d.cluster`. -/
  cluster : String
  mounts : List Mount
  /-- The ids of the networks that it is a member of. -/
  networks : List String
  deriving DecidableEq

/-- Whether a container, running or not, uses a volume. -/
def Container.uses (container : Container) (volume : String) : Bool :=
  container.mounts.any fun mount => mount.kind == "volume" && mount.name == some volume

structure Network where
  id : String
  name : String
  /-- Its label `app`. -/
  app : Option String
  deriving DecidableEq

structure Volume where
  name : String
  createdAt : Option String
  driver : Json
  labels : Json
  options : Json
  deriving DecidableEq

/-- A daemon never gives an id, or a name of containers or volumes, twice. A network's name it may. -/
@[ext] structure Docker where
  daemonId : String
  containers : List Container
  networks : List Network
  volumes : List Volume
  containerIds : (containers.map Container.id).Nodup
  containerNames : (containers.map Container.name).Nodup
  networkIds : (networks.map Network.id).Nodup
  volumeNames : (volumes.map Volume.name).Nodup
  /-- An id is made of letters and digits. -/
  plain : ∀ id ∈ containers.map Container.id ++ networks.map Network.id, '-' ∉ id.toList
  deriving DecidableEq

namespace Docker

def containerAt (docker : Docker) (reference : String) : Option Container :=
  (docker.containers.find? (·.id == reference)).or (docker.containers.find? (·.name == reference))

/-- A name that several networks have is no reference to any of them. -/
def networkAt (docker : Docker) (reference : String) : Option Network :=
  (docker.networks.find? (·.id == reference)).or
    (match docker.networks.filter (·.name == reference) with
      | [network] => some network
      | _ => none)

def volumeAt (docker : Docker) (name : String) : Option Volume := docker.volumes.find? (·.name == name)

/-- The ids of the members of a network. -/
def members (docker : Docker) (network : Network) : List String :=
  (docker.containers.filter (·.networks.contains network.id)).map Container.id

/-- The ids of the containers that use a volume. -/
def users (docker : Docker) (volume : String) : List String :=
  (docker.containers.filter (·.uses volume)).map Container.id

/-- The daemon with only such containers, networks and volumes. -/
def keep (docker : Docker) (containers : Container → Bool) (networks : Network → Bool) (volumes : Volume → Bool) : Docker where
  daemonId := docker.daemonId
  containers := docker.containers.filter containers
  networks := docker.networks.filter networks
  volumes := docker.volumes.filter volumes
  containerIds := docker.containerIds.sublist (List.filter_sublist.map _)
  containerNames := docker.containerNames.sublist (List.filter_sublist.map _)
  networkIds := docker.networkIds.sublist (List.filter_sublist.map _)
  volumeNames := docker.volumeNames.sublist (List.filter_sublist.map _)
  plain id member := docker.plain id
    ((List.filter_sublist.map Container.id).append (List.filter_sublist.map Network.id) |>.mem member)

def dropContainer (docker : Docker) (id : String) : Docker :=
  docker.keep (fun container => container.id ≠ id) (fun _ => true) (fun _ => true)

def dropNetwork (docker : Docker) (id : String) : Docker :=
  docker.keep (fun _ => true) (fun network => network.id ≠ id) (fun _ => true)

def dropVolume (docker : Docker) (name : String) : Docker :=
  docker.keep (fun _ => true) (fun _ => true) (fun volume => volume.name ≠ name)

end Docker

/-! ### Commands -/

inductive Command
  | info
  /-- `ps -a --format {{.Names}}` -/
  | containerNames
  | networkNames
  | networkIds
  | volumeNames
  | inspectNetwork (reference : String)
  | inspectContainer (reference : String)
  | inspectVolume (name : String)
  /-- `ps -a --filter volume=name --format {{.ID}}` -/
  | volumeUsers (name : String)
  | removeContainer (reference : String)
  | removeNetwork (reference : String)
  | removeVolume (name : String)
  /-- The marker of retirement, which is a file of the installation's home. -/
  | saveRetired (state : String)
  deriving DecidableEq

structure NetworkInspection where
  id : Option String
  app : Option String
  containers : Option (List String)

structure ContainerInspection where
  id : Option String
  owner : String
  cluster : String
  mounts : Option (List Mount)

abbrev Command.Answer : Command → Type
  | .info => String
  | .containerNames | .networkNames | .networkIds | .volumeNames | .volumeUsers _ => List String
  | .inspectNetwork _ => NetworkInspection
  | .inspectContainer _ => ContainerInspection
  | .inspectVolume _ => Volume
  | .removeContainer _ | .removeNetwork _ | .removeVolume _ | .saveRetired _ => Unit

inductive Failure
  /-- A command that failed or took too long. -/
  | command
  | refused (diagnostic : String)
  deriving DecidableEq

/-- The daemon, and the state in the marker of retirement. -/
structure Machine where
  docker : Docker
  retired : Option String
  deriving DecidableEq

def Machine.removeContainer (reference : String) (machine : Machine) : Except Failure (Unit × Machine) :=
  match machine.docker.containerAt reference with
  | some container => .ok ((),{ machine with docker := machine.docker.dropContainer container.id })
  | none => .error .command

def Machine.removeNetwork (reference : String) (machine : Machine) : Except Failure (Unit × Machine) :=
  match machine.docker.networkAt reference with
  | some network =>
    if machine.docker.members network = [] then
      .ok ((),{ machine with docker := machine.docker.dropNetwork network.id })
    else .error .command
  | none => .error .command

def Machine.removeVolume (name : String) (machine : Machine) : Except Failure (Unit × Machine) :=
  match machine.docker.volumeAt name with
  | some volume =>
    if machine.docker.users volume.name = [] then
      .ok ((),{ machine with docker := machine.docker.dropVolume volume.name })
    else .error .command
  | none => .error .command

/-- An answer that leaves the machine as it is. -/
def answered {α : Type} (machine : Machine) : Option α → Except Failure (α × Machine)
  | some answer => .ok (answer,machine)
  | none => .error .command

def exec : (command : Command) → Machine → Except Failure (command.Answer × Machine)
  | .info,machine => .ok (machine.docker.daemonId,machine)
  | .containerNames,machine => .ok (machine.docker.containers.map Container.name,machine)
  | .networkNames,machine => .ok (machine.docker.networks.map Network.name,machine)
  | .networkIds,machine => .ok (machine.docker.networks.map Network.id,machine)
  | .volumeNames,machine => .ok (machine.docker.volumes.map Volume.name,machine)
  | .inspectNetwork reference,machine => answered machine ((machine.docker.networkAt reference).map fun network =>
      ⟨some network.id,network.app,some (machine.docker.members network)⟩)
  | .inspectContainer reference,machine => answered machine ((machine.docker.containerAt reference).map fun container =>
      ⟨some container.id,container.owner,container.cluster,some container.mounts⟩)
  | .inspectVolume name,machine => answered machine (machine.docker.volumeAt name)
  | .volumeUsers name,machine => .ok (machine.docker.users name,machine)
  | .removeContainer reference,machine => machine.removeContainer reference
  | .removeNetwork reference,machine => machine.removeNetwork reference
  | .removeVolume name,machine => machine.removeVolume name
  | .saveRetired state,machine => .ok ((),{ machine with retired := some state })

/-- A command that removes something. -/
def Command.removes : Command → Bool
  | .removeContainer _ | .removeNetwork _ | .removeVolume _ => true
  | _ => false

/-- A command that only asks. -/
def Command.asks : Command → Bool
  | .removeContainer _ | .removeNetwork _ | .removeVolume _ | .saveRetired _ => false
  | _ => true

theorem exec_asks {command : Command} (asks : command.asks = true) {machine after : Machine} {answer : command.Answer}
    (executed : exec command machine = .ok (answer,after)) : after = machine := by
  have answers : ∀ {α : Type} {value : Option α} {result : α}, answered machine value = .ok (result,after) → after = machine := by
    intro α value result same
    cases value with
    | none => cases same
    | some value => cases same; rfl
  cases command with
  | removeContainer => cases asks
  | removeNetwork => cases asks
  | removeVolume => cases asks
  | saveRetired => cases asks
  | inspectNetwork => exact answers executed
  | inspectContainer => exact answers executed
  | inspectVolume => exact answers executed
  | _ => cases executed; rfl

abbrev Program := Fallible Machine Command Failure Command.Answer

abbrev run (command : Command) : Program command.Answer := submit command

end Proofstorm.Retirement
