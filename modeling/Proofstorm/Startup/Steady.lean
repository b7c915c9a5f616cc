import Proofstorm.Startup.Calls

/-!
What the operations keep. A file at the root of the volume that carries the name
of a marker is never changed or removed, and nothing is changed below
`lost+found`, by an operation of the driver (`execute_steady`) or by the native
program (`Surrounds`). So a marker that a start has found or written is there in
every state after it.
-/
namespace Proofstorm.Startup
open Proofstorm.Upload (Bytes Hash)
open Proofstorm.Interleaving (Deed)

/-- The markers and the seals of the components. -/
def markers : List String := [server,serverStarted,cln,clnStarted,identityMarker]

def lostAndFound : String := "lost+found"

/-- The native program creates and changes its own files: any but the markers and
    what the file system keeps in `lost+found`. -/
def Surrounds (a b : Machine) : Prop :=
  (∀ marker ∈ markers, b.at_ [marker] = a.at_ [marker]) ∧ ∀ rest, b.at_ (lostAndFound :: rest) = a.at_ (lostAndFound :: rest)

structure Steady (a b : Machine) : Prop where
  markers : ∀ marker ∈ markers, ∀ node, a.at_ [marker] = some node → b.at_ [marker] = some node
  lost : ∀ rest, b.at_ (lostAndFound :: rest) = a.at_ (lostAndFound :: rest)

theorem Steady.refl (a : Machine) : Steady a a := ⟨fun _ _ _ found => found,fun _ => rfl⟩

theorem Steady.trans (a b c : Machine) (first : Steady a b) (second : Steady b c) : Steady a c :=
  ⟨fun marker member node found => second.markers marker member node (first.markers marker member node found),
    fun rest => (second.lost rest).trans (first.lost rest)⟩

variable {a b machine : Machine} {dir : Path}

theorem Surrounds.steady (changed : Surrounds a b) : Steady a b :=
  ⟨fun marker member _ found => (changed.1 marker member).trans found,changed.2⟩

/-! ### Operations -/

/-- An operation that changes the volume. -/
def Operation.changes : Operation → Bool
  | .createDir _ | .createTemp _ | .writeTemp _ _ _ | .persistNoclobber _ _ _ _ | .persist _ _ _ _ | .removeTemp _ _ => true
  | _ => false

/-- An operation that enters a native program. -/
def Operation.enters : Operation → Bool
  | .create | .exec _ => true
  | _ => false

/-- The operation replaces nothing that has a name, and nothing in `lost+found`. -/
def Operation.Spares : Operation → Prop
  | .createDir path => path.head? ≠ some lostAndFound
  | .createTemp dir | .writeTemp dir _ _ | .removeTemp dir _ => dir.head? ≠ some lostAndFound
  | .persistNoclobber dir _ _ name => (dir ++ [name]).head? ≠ some lostAndFound ∧ dir.head? ≠ some lostAndFound
  | .persist _ _ _ _ => False
  | _ => True

theorem markers_letter : ∀ marker ∈ markers, marker.toList[1]? = some 'p' := by decide

theorem tempPath_ne_marker (dir : Path) (drawn : String) {marker : String} (member : marker ∈ markers) :
    tempPath dir drawn ≠ [marker] := by
  intro same
  have last : ".tmp" ++ drawn = marker := by
    have ends := congrArg List.getLast? same
    simpa [tempPath] using ends
  have text : ".tmp".toList ++ drawn.toList = marker.toList := by rw [← last,String.toList_append]
  have second : (".tmp".toList ++ drawn.toList)[1]? = marker.toList[1]? := by rw [text]
  rw [markers_letter marker member] at second
  have other : (".tmp".toList ++ drawn.toList)[1]? = some 't' := rfl
  rw [other] at second
  exact absurd (Option.some.inj second) (by decide)

theorem tempPath_ne_nil (dir : Path) (drawn : String) : tempPath dir drawn ≠ [] := by simp [tempPath]

theorem tempPath_head (drawn : String) (outside : dir.head? ≠ some lostAndFound) :
    (tempPath dir drawn).head? ≠ some lostAndFound := by
  cases dir with
  | nil =>
    intro same
    have text : ".tmp" ++ drawn = lostAndFound := by simpa [tempPath] using same
    have first : (".tmp".toList ++ drawn.toList)[0]? = lostAndFound.toList[0]? := by rw [← text,String.toList_append]
    have other : (".tmp".toList ++ drawn.toList)[0]? = some '.' := rfl
    rw [other] at first
    exact absurd first (by decide)
  | cons head tail => simpa [tempPath] using outside

theorem Steady.put {path : Path} (node : Node) (below : path ≠ [])
    (outside : path.head? ≠ some lostAndFound) (free : ∀ marker ∈ Startup.markers, path = [marker] → machine.at_ path = none) :
    Steady machine (machine.put path node) := by
  constructor
  · intro marker member found there
    rw [Machine.at_put below,if_neg]
    · exact there
    · intro same
      have none_ := free marker member same.symm
      rw [← same,there] at none_
      cases none_
  · intro rest
    rw [Machine.at_put below,if_neg]
    rintro rfl
    exact outside rfl

theorem Steady.erase {path : Path} (below : path ≠ []) (outside : path.head? ≠ some lostAndFound)
    (other : ∀ marker ∈ Startup.markers, path ≠ [marker]) : Steady machine (machine.erase path) := by
  constructor
  · intro marker member found there
    rw [Machine.at_erase below,if_neg fun same => other marker member same.symm]
    exact there
  · intro rest
    rw [Machine.at_erase below,if_neg]
    rintro rfl
    exact outside rfl

theorem make_steady {after : Machine} {path : Path} {node : Node} (made : make machine path node = .ok after)
    (outside : path.head? ≠ some lostAndFound) : Steady machine after := by
  simp only [make,bind_ok] at made
  obtain ⟨inside,_,made⟩ := made
  cases inside with
  | false =>
    obtain rfl := pure_ok.mp made
    exact .refl _
  | true =>
    obtain ⟨_,free,made⟩ := bind_ok.mp made
    obtain rfl := pure_ok.mp made
    have free := ensure_ok.mp free
    refine .put node ?_ outside fun _ _ _ => free
    rintro rfl
    cases free

theorem rename_steady {after : Machine} {drawn name : String} {contents : Bytes}
    (renamed : rename machine dir drawn contents name (fun target => target = none) = .ok after)
    (outside : (dir ++ [name]).head? ≠ some lostAndFound) (above : dir.head? ≠ some lostAndFound) :
    Steady machine after := by
  simp only [rename,bind_ok] at renamed
  obtain ⟨inside,_,renamed⟩ := renamed
  cases inside with
  | false =>
    obtain rfl := pure_ok.mp renamed
    exact .refl _
  | true =>
    obtain ⟨_,_,renamed⟩ := bind_ok.mp renamed
    obtain ⟨_,free,renamed⟩ := bind_ok.mp renamed
    obtain rfl := pure_ok.mp renamed
    have free : machine.at_ (dir ++ [name]) = none := by simpa using ensure_ok.mp free
    refine (Steady.erase (tempPath_ne_nil dir drawn) (tempPath_head drawn above) fun _ member =>
      tempPath_ne_marker dir drawn member).trans _ _ _ (.put _ (by simp) outside fun _ _ _ => ?_)
    rw [Machine.at_erase (tempPath_ne_nil dir drawn),free]
    split_ifs <;> rfl

/-- An operation that only looks leaves the machine as it is. -/
theorem execute_looks {operation : Operation} {answer : operation.Answer} (looks : operation.changes = false)
    (executed : execute operation a = .ok (answer,b)) : b = a := by
  cases operation with
  | createDir | createTemp | writeTemp | persistNoclobber | persist | removeTemp => cases looks
  | tryExists | symlinkMetadata | syncDir =>
    obtain ⟨_,_,last⟩ := bind_ok.mp executed
    exact (Prod.mk.inj (pure_ok.mp last)).2.symm
  | readDir =>
    obtain ⟨_,_,last⟩ := bind_ok.mp executed
    obtain ⟨_,_,last⟩ := bind_ok.mp last
    exact (Prod.mk.inj (pure_ok.mp last)).2.symm
  | read =>
    obtain ⟨node,_,last⟩ := bind_ok.mp executed
    cases node with
    | symlink => cases last
    | _ => exact (Prod.mk.inj (pure_ok.mp last)).2.symm
  | _ => exact (Prod.mk.inj (pure_ok.mp executed)).2.symm

theorem execute_steady {operation : Operation} {answer : operation.Answer} (spares : operation.Spares)
    (executed : execute operation a = .ok (answer,b)) : Steady a b := by
  cases operation with
  | createDir path =>
    obtain ⟨after,made,last⟩ := bind_ok.mp executed
    obtain ⟨_,rfl⟩ := Prod.mk.inj (pure_ok.mp last)
    exact make_steady made spares
  | createTemp dir =>
    obtain ⟨after,made,last⟩ := bind_ok.mp executed
    obtain ⟨_,rfl⟩ := Prod.mk.inj (pure_ok.mp last)
    exact make_steady made (tempPath_head _ spares)
  | writeTemp dir drawn contents =>
    obtain ⟨_,rfl⟩ := Prod.mk.inj (pure_ok.mp executed)
    split_ifs
    · exact .refl _
    · exact .put _ (tempPath_ne_nil _ _) (tempPath_head _ spares) fun _ member same =>
        absurd same (tempPath_ne_marker _ _ member)
  | persistNoclobber dir drawn contents name =>
    obtain ⟨after,renamed,last⟩ := bind_ok.mp executed
    obtain ⟨_,rfl⟩ := Prod.mk.inj (pure_ok.mp last)
    exact rename_steady renamed spares.1 spares.2
  | persist => exact spares.elim
  | removeTemp dir drawn =>
    obtain ⟨inside,_,last⟩ := bind_ok.mp executed
    obtain ⟨_,rfl⟩ := Prod.mk.inj (pure_ok.mp last)
    split_ifs
    · exact .erase (tempPath_ne_nil _ _) (tempPath_head _ spares) fun _ member => tempPath_ne_marker _ _ member
    · exact .refl _
  | _ => exact execute_looks rfl executed ▸ .refl _

end Proofstorm.Startup
