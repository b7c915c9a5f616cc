import Proofstorm.Upload.Files
import Proofstorm.Core.Utf8

/-!
The files below a directory of a workspace, as the calls of the operating system
show them. A name is a string of bytes, which need not be UTF-8, and a directory
lists its entries in an order that says nothing.
-/
namespace Proofstorm.Workspace
open Proofstorm.Upload (Failure)

/-- A name, as `OsString`. -/
abbrev FileName := List UInt8

mutual
/-- What is at a path, with all that is below it. -/
inductive Tree
  | file (content : List UInt8) (mode : Nat)
  | directory (entries : Listing)
  | symlink
  | special
/-- The entries of a directory, in the order in which `read_dir` lists them. -/
inductive Listing
  | nil
  | cons (name : FileName) (tree : Tree) (rest : Listing)
end

def Listing.toList : Listing → List (FileName × Tree)
  | .nil => []
  | .cons name tree rest => (name,tree) :: rest.toList

def Listing.names (entries : Listing) : List FileName := entries.toList.map Prod.fst

namespace Tree

def isDirectory : Tree → Bool
  | .directory _ => true
  | _ => false

def isSymlink : Tree → Bool
  | .symlink => true
  | _ => false

/-- What is at a name in a directory. -/
def child (tree : Tree) (name : FileName) : Option Tree :=
  match tree with
  | .directory entries => (entries.toList.find? fun entry => entry.1 == name).map Prod.snd
  | _ => none
end Tree

/-- `OsString::into_string`. -/
def intoString (name : FileName) : Option String := (Utf8.fromUtf8 name).toOption

/-- The bytes of a text, as `OsStr`. -/
def osName (text : String) : FileName := Utf8.encode text.toList

def pathRefused : Failure := .refused "workspace path contains a symlink or non-directory parent"

/-- The walk of `local_path`, without making parents: what is at a path, or nothing
    where only the last part of it is missing. -/
def walk (tree : Tree) : List String → Except Failure (Option Tree)
  | [] => pure (some tree)
  | part :: rest =>
    match tree.child (osName part) with
    | some node =>
      if node.isSymlink ∨ (rest ≠ [] ∧ ¬ node.isDirectory) then .error pathRefused
      else walk node rest
    | none => if rest = [] then pure none else .error .notFound

/-- `local_path`, and what is there. -/
def localPath (root : Tree) (path : String) : Except Failure (Option Tree) := do
  Upload.validatePath path
  walk root (Upload.segments path)

end Proofstorm.Workspace
