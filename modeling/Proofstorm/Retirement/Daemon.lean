import Mathlib.Data.List.Nodup
import Proofstorm.Retirement.Teardown

/-!
What the daemon answers about containers, networks and volumes. The names of an
installation are no ids, so that what is looked up by one of them has it as its name.
-/
namespace Proofstorm.Retirement
open Proofstorm.Core (Json)

/-- In a list without two elements of one key, a key finds what has it. -/
theorem find?_key {α : Type} {f : α → String} {list : List α} (distinct : (list.map f).Nodup) {key : String} {a : α} :
    list.find? (f · == key) = some a ↔ a ∈ list ∧ f a = key := by
  constructor
  · intro found
    exact ⟨List.mem_of_find?_eq_some found,by simpa using List.find?_some found⟩
  · rintro ⟨member,rfl⟩
    cases found : list.find? (f · == f a) with
    | none => exact absurd (List.find?_eq_none.mp found a member) (by simp)
    | some b =>
      have same : f b = f a := by simpa using List.find?_some found
      rw [List.inj_on_of_nodup_map distinct (List.mem_of_find?_eq_some found) member same]

namespace Docker

variable {docker : Docker}

theorem volumeAt_iff {name : String} {volume : Volume} :
    docker.volumeAt name = some volume ↔ volume ∈ docker.volumes ∧ volume.name = name := find?_key docker.volumeNames

theorem volume_eq {a b : Volume} (left : a ∈ docker.volumes) (right : b ∈ docker.volumes) (same : a.name = b.name) : a = b :=
  List.inj_on_of_nodup_map docker.volumeNames left right same

theorem container_eq {a b : Container} (left : a ∈ docker.containers) (right : b ∈ docker.containers) (same : a.name = b.name) :
    a = b := List.inj_on_of_nodup_map docker.containerNames left right same

theorem network_eq {a b : Network} (left : a ∈ docker.networks) (right : b ∈ docker.networks) (same : a.id = b.id) : a = b :=
  List.inj_on_of_nodup_map docker.networkIds left right same

theorem containerAt_id {container : Container} (member : container ∈ docker.containers) :
    docker.containerAt container.id = some container := by
  rw [containerAt,(find?_key docker.containerIds).mpr ⟨member,rfl⟩]
  rfl

variable {network : Network}

theorem networkAt_id (member : network ∈ docker.networks) :
    docker.networkAt network.id = some network := by
  rw [networkAt,(find?_key docker.networkIds).mpr ⟨member,rfl⟩]
  rfl

/-- What is not an id is looked up as a name. -/
theorem containerAt_name {name : String} (dash : '-' ∈ name.toList) {container : Container} :
    docker.containerAt name = some container ↔ container ∈ docker.containers ∧ container.name = name := by
  have none_ : docker.containers.find? (·.id == name) = none := by
    refine List.find?_eq_none.mpr fun other member same => docker.plain other.id ?_ ?_
    · exact List.mem_append_left _ (List.mem_map_of_mem member)
    · rwa [beq_iff_eq.mp same]
  rw [containerAt,none_]
  exact find?_key docker.containerNames

theorem networkAt_name {name : String} (dash : '-' ∈ name.toList) {network : Network} :
    docker.networkAt name = some network ↔ docker.networks.filter (·.name == name) = [network] := by
  have none_ : docker.networks.find? (·.id == name) = none := by
    refine List.find?_eq_none.mpr fun other member same => docker.plain other.id ?_ ?_
    · exact List.mem_append_right _ (List.mem_map_of_mem member)
    · rwa [beq_iff_eq.mp same]
  rw [networkAt,none_,Option.none_or]
  cases same : docker.networks.filter (·.name == name) with
  | nil => simp
  | cons first rest => cases rest <;> simp

/-- A name is one network's if all that have it have one id. -/
theorem networks_named {name : String} (member : network ∈ docker.networks) (named : network.name = name)
    (only : ∀ other ∈ docker.networks, other.name = name → other.id = network.id) :
    docker.networks.filter (·.name == name) = [network] := by
  have nodup : (docker.networks.filter (·.name == name)).Nodup := (List.Nodup.of_map _ docker.networkIds).filter _
  have all : ∀ other, other ∈ docker.networks.filter (·.name == name) ↔ other ∈ [network] := by
    intro other
    simp only [List.mem_filter,beq_iff_eq,List.mem_singleton]
    constructor
    · rintro ⟨among,same⟩
      exact network_eq among member (only other among same)
    · rintro rfl
      exact ⟨member,named⟩
  exact List.perm_singleton.mp ((List.perm_ext_iff_of_nodup nodup (List.nodup_singleton _)).mpr all)

theorem mem_members {id : String} :
    id ∈ docker.members network ↔ ∃ container ∈ docker.containers, network.id ∈ container.networks ∧ container.id = id := by
  simp [members,and_assoc]

theorem mem_users {volume id : String} :
    id ∈ docker.users volume ↔ ∃ container ∈ docker.containers, container.uses volume = true ∧ container.id = id := by
  simp [users,and_assoc]
end Docker

theorem Installation.context_dash (installation : Installation) : '-' ∈ installation.context.toList := by
  simp [Installation.context]

theorem containerNames_dash {installation : Installation} {name : String} (member : name ∈ containerNames installation) :
    '-' ∈ name.toList := by
  obtain ⟨suffix,_,rfl⟩ := List.mem_map.mp member
  simp

theorem mem_insertEntry {α : Type} {key : String} {value : α} {entries : List (String × α)} {entry : String × α} :
    entry ∈ insertEntry key value entries ↔ entry = (key,value) ∨ (entry ∈ entries ∧ entry.1 ≠ key) := by
  simp [insertEntry]

theorem sameEntries_ok {α : Type} [DecidableEq α] {what : String} {expected entries : List (String × α)} {u : Unit} :
    sameEntries what expected entries = .ok u ↔ ∀ entry ∈ entries, expected.lookup entry.1 = some entry.2 := by
  induction entries with
  | nil => simp [sameEntries]
  | cons entry rest ih =>
    simp [sameEntries,ih]

end Proofstorm.Retirement
