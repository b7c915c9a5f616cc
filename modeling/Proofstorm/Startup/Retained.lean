import Proofstorm.Startup.Starts

/-!
What the deeds of a start say of the volume. A marker that was found or written
is on the volume with these contents when the start is over (`holds_marker`), a
volume that was seen bare held nothing but an empty `lost+found`
(`bare_empty`), and a start that changed nothing found every marker as it is.
-/
namespace Proofstorm.Startup
open Proofstorm.Upload (Bytes Hash)
open Proofstorm.Interleaving
open Proofstorm.Sequenced

abbrev Start := Process Request Machine Operation (Except Failure Unit) Operation.Answer

/-- The volume holds nothing but an empty `lost+found`. -/
def Empty (machine : Machine) : Prop :=
  ∀ name node, machine.at_ [name] = some node → name = lostAndFound ∧ node = .directory ∧
    ∀ child, machine.at_ [lostAndFound,child] = none

/-! ### One operation -/

variable {machine : Machine}

theorem node_root {name : String} {node : Node} (found : machine.node [name] = .ok node) :
    machine.at_ [name] = some node := by
  have inside : machine.parent [name] = .ok true := rfl
  rw [Machine.node,inside,ok_bind,if_pos rfl] at found
  exact require_ok.mp found

theorem metadata_root {after : Machine} {name : String} {metadata : Metadata}
    (executed : execute (.symlinkMetadata [name]) machine = .ok (metadata,after)) (file : metadata.isFile = true) :
    ∃ content, machine.at_ [name] = some (.file content) := by
  obtain ⟨node,found,last⟩ := bind_ok.mp executed
  obtain ⟨rfl,_⟩ := Prod.mk.inj (pure_ok.mp last)
  cases node with
  | file content => exact ⟨content,node_root found⟩
  | directory => cases file
  | symlink => cases file
  | special => cases file

/-- What is read at the root is the file there, or is behind a link. -/
theorem read_root {after : Machine} {name : String} {limit : Nat} {bytes : Bytes}
    (executed : execute (.read [name] limit) machine = .ok (some bytes,after)) (within : bytes.length ≤ limit) :
    machine.at_ [name] = some (.file bytes) ∨ machine.at_ [name] = some .symlink := by
  obtain ⟨target,found,last⟩ := bind_ok.mp executed
  obtain ⟨node,stat,followed⟩ := bind_ok.mp found
  have here := node_root stat
  cases node with
  | symlink => exact .inr here
  | directory =>
    obtain rfl := pure_ok.mp followed
    cases (Prod.mk.inj (pure_ok.mp last)).1
  | special =>
    obtain rfl := pure_ok.mp followed
    cases (Prod.mk.inj (pure_ok.mp last)).1
  | file content =>
    obtain rfl := pure_ok.mp followed
    have taken : content.take (limit + 1) = bytes := Option.some.inj (Prod.mk.inj (pure_ok.mp last)).1
    have short : content.length ≤ limit := by
      have length := congrArg List.length taken
      rw [List.length_take] at length
      omega
    rw [List.take_of_length_le (by omega)] at taken
    exact .inl (taken ▸ here)

theorem persist_root {after : Machine} {drawn name : String} {contents : Bytes} {answer : Unit}
    (executed : execute (.persistNoclobber [] drawn contents name) machine = .ok (answer,after)) :
    after.at_ [name] = some (.file contents) := by
  obtain ⟨last,renamed,same⟩ := bind_ok.mp executed
  obtain ⟨_,rfl⟩ := Prod.mk.inj (pure_ok.mp same)
  have inside : machine.directory [] = .ok true := rfl
  rw [rename,inside,ok_bind,if_pos rfl] at renamed
  obtain ⟨_,_,renamed⟩ := bind_ok.mp renamed
  obtain ⟨_,_,renamed⟩ := bind_ok.mp renamed
  obtain rfl := pure_ok.mp renamed
  rw [Machine.at_put (by simp)]
  exact if_pos rfl

theorem mem_listing (path : Path) {name : String} {node : Node}
    (there : machine.at_ (path ++ [name]) = some node) : (name,decide (node = .directory)) ∈ machine.listing path := by
  have found : (machine.volume.find (path ++ [name])).map Entry.node = some node := by
    cases path <;> exact there
  obtain ⟨entry,row,rfl⟩ := Option.map_eq_some_iff.mp found
  obtain ⟨member,place⟩ := Table.find_eq_some.mp row
  refine List.mem_filterMap.mpr ⟨entry,member,?_⟩
  have place : entry.path = path ++ [name] := place
  simp [place]

theorem readDir_root {after : Machine} {path : Path} {listing : List (String × Bool)}
    (executed : execute (.readDir path) machine = .ok (listing,after)) : listing = machine.listing path := by
  obtain ⟨_,_,last⟩ := bind_ok.mp executed
  obtain ⟨_,_,last⟩ := bind_ok.mp last
  exact (Prod.mk.inj (pure_ok.mp last)).1.symm

/-! ### One start -/

section
variable [Hash] [Bip39] {request : Request} {first last : Machine}
  {moments : List (Moment Machine Operation Operation.Answer)}
  {rest : Call Machine Operation Failure Operation.Answer (Except Failure Unit)}

section
variable (trace : Trace execute .io Surrounds (code request) first moments rest last)
include trace

/-- A statement of a start was allowed by deeds that it had done. -/
theorem allowed_of_mem {moment : Moment Machine Operation Operation.Answer} (member : moment ∈ moments)
    {operation : Operation}
    {answer : operation.Answer} (did : moment.deed = .did operation answer) :
    ∃ deeds, deeds ⊆ moments.map Moment.deed ∧ Allows request deeds operation := by
  obtain ⟨newer,older,rfl⟩ := List.append_of_mem member
  refine ⟨older.map Moment.deed,?_,trace.allowed (code_grounded request) rfl did⟩
  exact List.map_subset _ fun _ later => List.mem_append_right _ (List.mem_cons_of_mem _ later)

theorem steady_along :
    Along execute Surrounds moments Steady := by
  refine ⟨.refl,.trans,fun _ _ changed => changed.steady,fun moment member operation answer did executed => ?_⟩
  obtain ⟨_,_,allows⟩ := allowed_of_mem trace member did
  cases changes : operation.changes with
  | true => exact execute_steady (allows.spares changes).1 executed
  | false => exact execute_looks changes executed ▸ .refl _

/-- Each deed was done in a state that is steady between the first and the last. -/
theorem did_executed {operation : Operation}
    {answer : operation.Answer} (did : Did (moments.map Moment.deed) operation answer) :
    ∃ moment ∈ moments, execute operation moment.before = .ok (answer,moment.after) ∧
      Steady first moment.before ∧ Steady moment.before last ∧ Steady moment.after last := by
  obtain ⟨moment,member,same⟩ := List.mem_map.mp did
  obtain ⟨up,during,on⟩ := trace.from_moment (steady_along trace) member
  exact ⟨moment,member,trace.executed member same,up,during.trans _ _ _ on,on⟩

theorem holds_marker {marker : String}
    {contents : Bytes} (marks : marker ∈ markers) (holds : Holds (moments.map Moment.deed) marker contents) :
    last.at_ [marker] = some (.file contents) := by
  obtain ⟨⟨metadata,file,looked⟩,limit,within,read⟩ | ⟨drawn,wrote⟩ := holds
  · obtain ⟨look,_,looked,_,on,_⟩ := did_executed trace looked
    obtain ⟨content,there⟩ := metadata_root looked file
    have kept := on.markers marker marks _ there
    obtain ⟨moment,_,executed,_,on,_⟩ := did_executed trace read
    rcases read_root executed within with here | here
    · exact on.markers marker marks _ here
    · have link := on.markers marker marks _ here
      rw [kept] at link
      cases link
  · obtain ⟨moment,_,executed,_,_,on⟩ := did_executed trace wrote
    exact on.markers marker marks _ (persist_root executed)

theorem bare_empty (bare : Bare (moments.map Moment.deed)) : ∃ moment ∈ moments, Empty moment.before := by
  obtain ⟨listing,listed,each⟩ := bare
  obtain ⟨moment,member,executed,up,_,_⟩ := did_executed trace listed
  refine ⟨moment,member,fun name node there => ?_⟩
  obtain rfl := readDir_root executed
  obtain ⟨named,directory,below⟩ := each _ (mem_listing [] there)
  refine ⟨named,of_decide_eq_true directory,fun child => ?_⟩
  obtain ⟨inner,_,looked,up',_,_⟩ := did_executed trace below
  have empty := readDir_root looked
  rw [up.lost,← up'.lost]
  cases found : inner.before.at_ [lostAndFound,child] with
  | none => rfl
  | some node =>
    have listed := mem_listing [lostAndFound] found
    rw [← empty] at listed
    cases listed
end

/-! ### A start that changes nothing -/

def changesDeed : Deed Machine Operation Operation.Answer → Bool
  | .did operation _ => operation.changes
  | _ => false

/-- The call has changed no file. -/
def Unchanged (moments : List (Moment Machine Operation Operation.Answer)) : Prop :=
  ∀ moment ∈ moments, changesDeed moment.deed = false

/-- The markers are as they were. -/
def SameMarkers (a b : Machine) : Prop := ∀ marker ∈ markers, b.at_ [marker] = a.at_ [marker]

theorem unchanged_markers (trace : Trace execute .io Surrounds (code request) first moments rest last)
    (unchanged : Unchanged moments) : SameMarkers first last := by
  refine trace.across ⟨fun _ _ _ => rfl,fun _ _ _ one two marker member => ?_,fun _ _ changed => changed.1,?_⟩
  · exact (two marker member).trans (one marker member)
  · intro moment member operation answer did executed
    have still := unchanged moment member
    rw [did] at still
    rw [execute_looks still executed]
    exact fun _ _ => rfl

/-- A start changes files only on an empty volume, and only if it may initialize it. -/
theorem unchanged_of_not_empty (trace : Trace execute .io Surrounds (code request) first moments rest last)
    (start : request.checks = false) (never : request.initializes = true → ∀ moment ∈ moments, ¬ Empty moment.before) :
    Unchanged moments := by
  intro moment member
  cases same : moment.deed with
  | read state => rfl
  | failed operation => rfl
  | did operation answer =>
    obtain ⟨deeds,subset,allows⟩ := allowed_of_mem trace member same
    by_contra changes
    obtain ⟨_,⟨bare,initializes⟩ | checks⟩ := allows.spares (by simpa [changesDeed] using changes)
    · obtain ⟨other,there,empty⟩ := bare_empty trace (bare.later subset)
      exact never initializes other there empty
    · rw [start] at checks
      cases checks
end

end Proofstorm.Startup
