import Proofstorm.Outcome
import Proofstorm.Retirement.Docker

/-!
Retirement of an installation's Docker runtime. What may be deleted is what a receipt
records: containers and the network by their ids, volumes by their names and creation
metadata. Before each step the runtime is read again and compared with the receipt.
-/
namespace Proofstorm.Retirement
open Proofstorm.Core (Json)
open Proofstorm.Interleaving

structure Installation where
  formatVersion : Nat
  id : String
  deriving DecidableEq

namespace Installation

def clusterName (installation : Installation) : String :=
  if installation.formatVersion = 1 then "pst-" ++ .ofList (installation.id.toList.take 28)
  else "proofstorm-" ++ .ofList (installation.id.toList.take 8)

def context (installation : Installation) : String := "k3d-" ++ installation.clusterName

def networkName (installation : Installation) : String := installation.context

def registryName (installation : Installation) : String := "k3d-" ++ installation.clusterName ++ "-registry"

def imageVolume (installation : Installation) : String := installation.context ++ "-images"

end Installation

/-- What a receipt records of a runtime. Its maps are lists of distinct keys. -/
structure Resources where
  formatVersion : Nat
  installationId : String
  daemonId : String
  containers : List (String × String)
  networkId : Option String
  volumes : List (String × Json)
  deriving DecidableEq

def containerNames (installation : Installation) : List String :=
  ["server-0","agent-0","serverlb","registry","tools"].map fun suffix => installation.context ++ "-" ++ suffix

/-- Docker volumes have no immutable ID. Bind the name to its creation metadata. -/
def volumeIdentity (volume : Volume) : Json :=
  Json.object [("CreatedAt",volume.createdAt.elim .null .str),("Driver",volume.driver),("Labels",volume.labels),
    ("Name",.str volume.name),("Options",volume.options)]

/-- An insertion into a map. -/
def insertEntry {α : Type} (key : String) (value : α) (entries : List (String × α)) : List (String × α) :=
  (key,value) :: entries.filter (·.1 ≠ key)

/-! ### The runtime as it is -/

/-- A volume, where its creation is known. -/
def readVolume (name missing : String) (volumes : List (String × Json)) : Program (List (String × Json)) := do
  let data : Volume ← run (.inspectVolume name)
  settle (ensure (data.createdAt.isSome = true) (.refused missing))
  pure (insertEntry name (volumeIdentity data) volumes)

def readMounts : List Mount → List (String × Json) → Program (List (String × Json))
  | [], volumes => pure volumes
  | mount :: rest, volumes =>
    if mount.kind ≠ "volume" then readMounts rest volumes
    else do
      let name ← settle (require mount.name (.refused "volume name missing"))
      let volumes ← readVolume name "volume creation identity missing" volumes
      readMounts rest volumes

/-- A container of the runtime carries its owner, or is an auxiliary one of its cluster. -/
def owned (installation : Installation) (name owner cluster : String) : Prop :=
  owner = installation.id ∨
    ((name = installation.registryName ∨ "-tools".toList.isSuffixOf name.toList = true) ∧ cluster = installation.clusterName)

instance (installation : Installation) (name owner cluster : String) :
    Decidable (owned installation name owner cluster) := inferInstanceAs (Decidable (_ ∨ _))

/-- The containers and volumes of a runtime. -/
abbrev Found := List (String × String) × List (String × Json)

def readContainer (installation : Installation) (name : String) (found : Found) : Program Found := do
  let data : ContainerInspection ← run (.inspectContainer name)
  settle (ensure (owned installation name data.owner data.cluster) (.refused s!"foreign runtime container {name}"))
  let id ← settle (require data.id (.refused "container ID missing"))
  settle (ensure (id ≠ "") (.refused "empty container ID"))
  let mounts ← settle (require data.mounts (.refused "container mounts missing"))
  let volumes ← readMounts mounts found.2
  pure (insertEntry name id found.1,volumes)

def readContainers (installation : Installation) (allNames : List String) : List String → Found → Program Found
  | [], found => pure found
  | name :: rest, found =>
    if name ∈ allNames then do
      let found ← readContainer installation name found
      readContainers installation allNames rest found
    else readContainers installation allNames rest found

def readNetwork (installation : Installation) (networks : List String) : Program (Option String) :=
  if installation.networkName ∈ networks then do
    let data : NetworkInspection ← run (.inspectNetwork installation.networkName)
    settle (ensure (data.app = some "k3d") (.refused "foreign runtime network"))
    let id ← settle (require data.id (.refused "network ID missing"))
    pure (some id)
  else pure none

/-- k3d may leave its named image volume unattached after the tools node exits. -/
def readImages (installation : Installation) (volumes : List (String × Json)) : Program (List (String × Json)) := do
  let names : List String ← run .volumeNames
  if installation.imageVolume ∈ names then
    readVolume installation.imageVolume "image volume creation identity missing" volumes
  else pure volumes

def snapshot (installation : Installation) : Program Resources := do
  let daemonId : String ← run .info
  settle (ensure (daemonId ≠ "") (.refused "Docker daemon identity unavailable"))
  let allNames : List String ← run .containerNames
  let networks : List String ← run .networkNames
  let networkId ← readNetwork installation networks
  let found ← readContainers installation allNames (containerNames installation) ([],[])
  let volumes ← readImages installation found.2
  pure ⟨1,installation.id,daemonId,found.1,networkId,volumes⟩

/-! ### Its comparison with a receipt -/

/-- Each entry of a map is one of the receipt's. -/
def sameEntries {α : Type} [DecidableEq α] (what : String) (expected : List (String × α)) :
    List (String × α) → Except Failure Unit
  | [] => .ok ()
  | (name,value) :: rest => do
    ensure (expected.lookup name = some value) (.refused s!"foreign or replaced {what} {name}")
    sameEntries what expected rest

def unchanged (expected current : Resources) : Except Failure Unit := do
  ensure (expected.installationId = current.installationId ∧ expected.daemonId = current.daemonId)
    (.refused "installation or Docker daemon changed; refusing runtime deletion")
  sameEntries "container" expected.containers current.containers
  ensure (current.networkId.isSome = true → expected.networkId = current.networkId)
    (.refused "foreign or replaced runtime network")
  sameEntries "volume" expected.volumes current.volumes

/-- The ids of the containers that a receipt records. -/
def Resources.ids (expected : Resources) : List String := expected.containers.map Prod.snd

def exclusiveMembers (expected : Resources) (network : String) : Program Unit := do
  let networks : List String ← run .networkIds
  if network ∈ networks then do
    let data : NetworkInspection ← run (.inspectNetwork network)
    let members ← settle (require data.containers (.refused "network member inventory missing"))
    settle (ensure (∀ id ∈ members, id ∈ expected.ids) (.refused "foreign container joined the runtime network"))
  else pure ()

def exclusiveNetwork (expected : Resources) : Program Unit :=
  match expected.networkId with
  | some network => exclusiveMembers expected network
  | none => pure ()

def exclusiveVolumes (expected : Resources) (listed : List String) : List (String × Json) → Program Unit
  | [] => pure ()
  | (name,identity) :: rest =>
    if name ∈ listed then do
      let data : Volume ← run (.inspectVolume name)
      settle (ensure (volumeIdentity data = identity) (.refused s!"foreign or replaced volume {name}"))
      let users : List String ← run (.volumeUsers name)
      settle (ensure (∀ id ∈ users, id ∈ expected.ids) (.refused s!"foreign container uses runtime volume {name}"))
      exclusiveVolumes expected listed rest
    else exclusiveVolumes expected listed rest

def exclusive (expected : Resources) : Program Unit := do
  exclusiveNetwork expected
  -- Inspect every recorded volume even after its last container was removed.
  let volumes : List String ← run .volumeNames
  exclusiveVolumes expected volumes expected.volumes

/-- `unchanged(expected, &snapshot(installation, run)?)?`. -/
def compared (installation : Installation) (expected : Resources) : Program Resources := do
  let current ← snapshot installation
  settle (unchanged expected current)
  pure current

/-! ### Removal -/

def removeContainers (installation : Installation) (expected : Resources) : List (String × String) → Program Unit
  | [] => pure ()
  | (name,id) :: rest => do
    let current ← compared installation expected
    exclusive expected
    if name ∈ current.containers.map Prod.fst then do
      run (.removeContainer id) -- No -v: volumes are verified separately.
      removeContainers installation expected rest
    else removeContainers installation expected rest

def removeNetwork (expected : Resources) : Program Unit :=
  match expected.networkId with
  | some network => do
    let networks : List String ← run .networkIds
    if network ∈ networks then run (.removeNetwork network) else pure ()
  | none => pure ()

def removeVolumes (expected : Resources) : List (String × Json) → Program Unit
  | [] => pure ()
  | (name,_) :: rest => do
    exclusive expected
    let volumes : List String ← run .volumeNames
    if name ∈ volumes then do
      run (.removeVolume name)
      removeVolumes expected rest
    else removeVolumes expected rest

/-- What is left when all has been removed. -/
def verifyRemoved (installation : Installation) (expected : Resources) : Program Unit := do
  let current ← compared installation expected
  settle (ensure (current.containers = [] ∧ current.networkId = none ∧ current.volumes = [])
    (.refused "runtime resources remain after deletion"))

def remove (installation : Installation) (expected : Resources) : Program Unit := do
  let _ ← compared installation expected
  exclusive expected
  removeContainers installation expected expected.containers
  let _ ← compared installation expected
  exclusive expected
  removeNetwork expected
  removeVolumes expected expected.volumes
  verifyRemoved installation expected

/-! ### The installation's home -/

/-- The receipt's file, and what its text reads as. -/
structure ReceiptFile where
  isFile : Bool
  len : Nat
  resources : Option Resources

/-- The owner's file: the installation that it names, and its digest of the kubeconfig, null or not. -/
structure OwnerFile where
  installationId : Json
  kubeconfigSha256 : Json

/-- The files of a home that retirement looks at. -/
structure Home where
  guiProcess : Bool
  receipt : Option ReceiptFile
  /-- Where there is one, what it reads as. -/
  owner : Option (Option OwnerFile)
  kubeconfig : Bool
  /-- Whether `verify_kubeconfig` accepts it. -/
  kubeconfigVerified : Bool

def readReceipt (installation : Installation) (home : Home) : Except Failure Resources := do
  let file ← require home.receipt
    (.refused "runtime resource receipt missing; refusing to adopt resources for deletion")
  ensure (file.isFile = true ∧ file.len < 1024 * 1024) (.refused "invalid runtime resource receipt")
  let receipt ← require file.resources (.refused "serde_json")
  ensure (receipt.formatVersion = 1 ∧ receipt.installationId = installation.id)
    (.refused "runtime resource receipt belongs to another installation")
  ensure (∀ entry ∈ receipt.containers, entry.1 ∈ containerNames installation)
    (.refused "unexpected container in runtime receipt")
  return receipt

/-- The kubeconfig is the recorded one, or there is neither. -/
def checkOwner (installation : Installation) (home : Home) : Except Failure Unit :=
  match home.owner with
  | some file => do
    let value ← require file (.refused "serde_json")
    ensure (value.installationId = .str installation.id) (.refused "runtime owner changed")
    if value.kubeconfigSha256 = .null then
      ensure (home.kubeconfig = false) (.refused "unrecorded kubeconfig; refusing deletion")
    else ensure (home.kubeconfigVerified = true) (.refused "verify_kubeconfig")
  | none => ensure (home.kubeconfig = false) (.refused "unrecorded kubeconfig; refusing deletion")

/-- What a retirement is to remove, if it may remove anything. -/
def authority (installation : Installation) (home : Home) : Except Failure Resources := do
  ensure (home.guiProcess = false) (.refused "stop this installation's GUI before retiring its runtime")
  let expected ← readReceipt installation home
  checkOwner installation home
  return expected

def retireLocked (installation : Installation) (home : Home) : Program Unit := do
  let expected ← settle (authority installation home)
  let _ ← compared installation expected
  exclusive expected
  -- Save intent before mutating; setup must never restart a partially retired home.
  run (.saveRetired "deleting")
  remove installation expected
  run (.saveRetired "deleted")

end Proofstorm.Retirement
