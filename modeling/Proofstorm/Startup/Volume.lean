import Proofstorm.Traced
import Proofstorm.Table
import Proofstorm.Upload.Files
import Mathlib.Data.List.Infix

/-!
The volume of a native component, and the file operations on it. A path is
relative to the root of the volume, which is a mounted directory. A link leads
out of the volume: what is found behind one, the names that are drawn for
temporary files and the status of a program are part of the machine, and change
with the files of the native program at any time.
-/
namespace Proofstorm.Startup
open Proofstorm.Upload (Bytes)
open Proofstorm.Interleaving (Deed Fallible submit)

abbrev Path := List String

inductive Node
  | file (content : Bytes)
  | directory
  | symlink
  | special
  deriving DecidableEq

/-- `fs::Metadata`, as it is looked at. -/
structure Metadata where
  isFile : Bool
  isDir : Bool
  len : Nat
  deriving DecidableEq

def Node.metadata : Node → Metadata
  | .file content => ⟨true,false,content.length⟩
  | .directory => ⟨false,true,0⟩
  | .symlink => ⟨false,false,0⟩
  | .special => ⟨false,false,0⟩

structure Entry where
  path : Path
  node : Node
  deriving DecidableEq

instance : Keyed Entry Path := ⟨Entry.path⟩

structure Machine where
  volume : Table Entry
  /-- What is found behind the link at a path, or at a path below a link. -/
  beyond : Path → Option Node
  /-- What is drawn for the name of the next temporary file. -/
  drawn : String
  /-- Whether the next native program ends with success. -/
  succeeds : Bool

inductive Failure
  | notFound
  | io
  | refused (message : String)
  deriving DecidableEq

namespace Machine

/-- What is at a path of the volume. -/
def at_ (machine : Machine) : Path → Option Node
  | [] => some .directory
  | path => (machine.volume.find path).map Entry.node

def put (machine : Machine) (path : Path) (node : Node) : Machine :=
  { machine with volume := machine.volume.upsert ⟨path,node⟩ (fun entry => { entry with node }) fun _ => rfl }

def erase (machine : Machine) (path : Path) : Machine :=
  { machine with volume := machine.volume.delete fun entry => entry.path = path }

theorem at_put {machine : Machine} {path : Path} (below : path ≠ []) (node : Node) (other : Path) :
    (machine.put path node).at_ other = if other = path then some node else machine.at_ other := by
  cases other with
  | nil => rw [if_neg (Ne.symm below)]; rfl
  | cons head tail =>
    simp only [at_,put,Table.find_upsert]
    by_cases same : head :: tail = path
    · rw [if_pos same]
      cases found : machine.volume.find path <;> simp [same,key,found]
    · simp [same,key,Ne.symm same]

theorem at_erase {machine : Machine} {path : Path} (below : path ≠ []) (other : Path) :
    (machine.erase path).at_ other = if other = path then none else machine.at_ other := by
  cases other with
  | nil => rw [if_neg (Ne.symm below)]; rfl
  | cons head tail =>
    simp only [at_,erase]
    have deleted := Table.find_delete_key machine.volume path (head :: tail)
    simp only [key] at deleted
    rw [deleted]
    split_ifs <;> rfl

/-- The walk over the directories of a path: true where it stays in the volume,
    false where it leaves through a link. -/
def walk (machine : Machine) : List Path → Except Failure Bool
  | [] => .ok true
  | path :: rest =>
    match machine.at_ path with
    | some .directory => machine.walk rest
    | some .symlink => .ok false
    | some _ => .error .io
    | none => .error .notFound

/-- Whether the directory that holds a path is in the volume. -/
def parent (machine : Machine) (path : Path) : Except Failure Bool := machine.walk path.inits.dropLast

/-- Whether a directory is in the volume. -/
def directory (machine : Machine) (path : Path) : Except Failure Bool := machine.walk path.inits

/-- `lstat`. -/
def node (machine : Machine) (path : Path) : Except Failure Node := do
  if ← machine.parent path then require (machine.at_ path) .notFound else require (machine.beyond path) .notFound

/-- `stat`. -/
def target (machine : Machine) (path : Path) : Except Failure Node := do
  match ← machine.node path with
  | .symlink => require (machine.beyond path) .notFound
  | node => pure node

/-- The entries of a directory of the volume, each with whether it is a directory. -/
def listing (machine : Machine) (path : Path) : List (String × Bool) :=
  machine.volume.rows.filterMap fun entry =>
    match entry.path.getLast? with
    | some name => if entry.path.dropLast = path then some (name,entry.node = .directory) else none
    | none => none
end Machine

/-! ### Operations -/

/-- The native programs that a start becomes. -/
inductive Native
  | captaind
  | lightningd
  | processor (mnemonic methods : String)
  deriving DecidableEq

inductive Operation
  | tryExists (path : Path)
  | isDir (path : Path)
  | symlinkMetadata (path : Path)
  | read (path : Path) (limit : Nat)
  | readDir (path : Path)
  | createDir (path : Path)
  | createTemp (dir : Path)
  | writeTemp (dir : Path) (drawn : String) (contents : Bytes)
  | syncTemp (dir : Path) (drawn : String)
  | persistNoclobber (dir : Path) (drawn : String) (contents : Bytes) (name : String)
  | persist (dir : Path) (drawn : String) (contents : Bytes) (name : String)
  | removeTemp (dir : Path) (drawn : String)
  | syncDir (dir : Path)
  /-- Writing `/runtime/bark-created`, which is not on the volume. -/
  | writeCreated
  /-- Running `captaind create`. -/
  | create
  | exec (program : Native)
  | rpc (command : String)
  | connect (port : Nat)
  deriving DecidableEq

/-- What an operation returns: of a read, as many bytes as were asked for and one
    more, where the file is a regular one. -/
def Operation.Answer : Operation → Type
  | .tryExists _ => Bool
  | .isDir _ => Bool
  | .symlinkMetadata _ => Metadata
  | .read _ _ => Option Bytes
  | .readDir _ => List (String × Bool)
  | .createTemp _ => String
  | .create => Bool
  | _ => Unit

/-- The name of a temporary file. -/
def tempPath (dir : Path) (drawn : String) : Path := dir ++ [".tmp" ++ drawn]

/-- Whether anything is there, behind a link at the end of the path too. -/
def exists_ (machine : Machine) (path : Path) : Except Failure Bool :=
  match machine.target path with
  | .ok _ => .ok true
  | .error .notFound => .ok false
  | .error error => .error error

/-- A new entry, where there is none. -/
def make (machine : Machine) (path : Path) (node : Node) : Except Failure Machine := do
  if ← machine.parent path then
    ensure (machine.at_ path = none) .io
    pure (machine.put path node)
  else pure machine

/-- The rename of a temporary file onto a name beside it. The contents are those
    that its writer, who alone has it open, has written. -/
def rename (machine : Machine) (dir : Path) (drawn : String) (contents : Bytes) (name : String)
    (fits : Option Node → Bool) : Except Failure Machine := do
  if ← machine.directory dir then
    ensure (machine.at_ (tempPath dir drawn) ≠ none) .notFound
    ensure (fits (machine.at_ (dir ++ [name])) = true) .io
    pure ((machine.erase (tempPath dir drawn)).put (dir ++ [name]) (.file contents))
  else pure machine

def execute (operation : Operation) (machine : Machine) : Except Failure (operation.Answer × Machine) :=
  match operation with
  | .tryExists path => do return (← exists_ machine path,machine)
  | .isDir path => pure (decide ((machine.target path).toOption = some .directory),machine)
  | .symlinkMetadata path => do return ((← machine.node path).metadata,machine)
  | .read path limit => do
    match ← machine.target path with
    | .file content => return (some (content.take (limit + 1)),machine)
    | .symlink => throw .io
    | _ => return (none,machine)
  -- Never asked of a link: the directories that are listed were seen not to be one.
  | .readDir path => do
    ensure ((← machine.node path) = .directory) .io
    return (machine.listing path,machine)
  | .createDir path => do return ((),← make machine path .directory)
  | .createTemp dir => do
    let after ← make machine (tempPath dir machine.drawn) (.file [])
    return (machine.drawn,after)
  | .writeTemp dir drawn contents => do
    let after := if machine.at_ (tempPath dir drawn) = none then machine else machine.put (tempPath dir drawn) (.file contents)
    return ((),after)
  | .syncTemp _ _ => pure ((),machine)
  | .persistNoclobber dir drawn contents name => do
    return ((),← rename machine dir drawn contents name fun target => target = none)
  | .persist dir drawn contents name => do
    return ((),← rename machine dir drawn contents name fun target => target ≠ some .directory)
  | .removeTemp dir drawn => do
    let after := if ← machine.directory dir then machine.erase (tempPath dir drawn) else machine
    return ((),after)
  | .syncDir dir => do
    let _ ← machine.directory dir
    return ((),machine)
  | .writeCreated => pure ((),machine)
  | .create => pure (machine.succeeds,machine)
  | .exec _ => pure ((),machine)
  | .rpc _ => pure ((),machine)
  | .connect _ => pure ((),machine)

abbrev Program := Fallible Machine Operation Failure Operation.Answer

abbrev exec (operation : Operation) : Program operation.Answer := submit operation

abbrev Deeds := List (Deed Machine Operation Operation.Answer)

end Proofstorm.Startup
