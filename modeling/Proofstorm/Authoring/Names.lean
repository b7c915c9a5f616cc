import Proofstorm.Core.Model
import Proofstorm.Core.Text

/-!
The texts that a cell is checked for and the issues that the checks report.
A byte of a character outside ASCII is none of those that a name may hold, so
the predicates read a text character by character; lengths are those in bytes.
-/
namespace Proofstorm.Validation
open Proofstorm.Core

/-! ### Issues -/

structure ValidationIssue where
  code : String
  path : String
  message : String
  deriving DecidableEq

structure ValidationReport where
  valid : Bool
  issues : List ValidationIssue
  deriving DecidableEq

def ValidationReport.fromIssues (issues : List ValidationIssue) : ValidationReport :=
  ⟨issues.isEmpty,issues⟩

/-- One issue where the condition holds. -/
def issue (condition : Bool) (code path message : String) : List ValidationIssue :=
  if condition then [⟨code,path,message⟩] else []

@[simp] theorem issue_eq_nil {condition : Bool} {code path message : String} :
    issue condition code path message = [] ↔ condition = false := by
  unfold issue
  cases condition <;> simp

/-- `for (index, x) in list.iter().enumerate()`: the issues of every entry. -/
def enumerate {α : Type} (check : Nat → α → List ValidationIssue) (list : List α) : List ValidationIssue :=
  list.zipIdx.flatMap fun (x,index) => check index x

theorem enumerate_eq_nil {α : Type} {check : Nat → α → List ValidationIssue} {list : List α} :
    enumerate check list = [] ↔ ∀ index x, list[index]? = some x → check index x = [] := by
  unfold enumerate
  rw [List.flatMap_eq_nil_iff]
  constructor
  · intro clean index x found
    exact clean (x,index) (List.mk_mem_zipIdx_iff_getElem?.mpr found)
  · rintro clean ⟨x,index⟩ member
    exact clean index x (List.mk_mem_zipIdx_iff_getElem?.mp member)

/-! ### Texts -/

/-- `{text:?}`. Characters that have no printable form keep theirs. -/
def quoted (text : String) : String := .ofList ('"' :: text.toList.flatMap plain ++ ['"'])
where
  plain (c : Char) : List Char :=
    if c = '"' then ['\\','"']
    else if c = '\\' then ['\\','\\']
    else if c = '\n' then ['\\','n']
    else if c = '\r' then ['\\','r']
    else if c = '\t' then ['\\','t']
    else [c]

/-- `join(", ")`. -/
def listed (parts : List String) : String := ", ".intercalate parts

def isLowercase (c : Char) : Bool := 'a' ≤ c ∧ c ≤ 'z'

def isAlphanumeric (c : Char) : Bool := isLowercase c || ('A' ≤ c ∧ c ≤ 'Z') || c.isDigit

/-- The characters of a slug after one that was, or was not, a dash. -/
def slugChars : Bool → List Char → Bool
  | _, [] => true
  | previousDash, c :: rest =>
    let isDash := c == '-'
    (isLowercase c || c.isDigit || isDash) && !(isDash && previousDash) && slugChars isDash rest

def isSlug (value : String) : Bool :=
  !(value.toList.isEmpty || 63 < value.utf8ByteSize || value.toList.head? == some '-' ||
      value.toList.getLast? == some '-') &&
    slugChars false value.toList

def isConfigVersionIdentifier (value : String) : Bool :=
  !value.toList.isEmpty && value.utf8ByteSize ≤ 128 &&
    (value.toList.splitOn '/').all fun segment =>
      !segment.isEmpty && segment ≠ ['.'] && segment ≠ ['.','.'] &&
        segment.all fun c => isAlphanumeric c || c == '.' || c == '+' || c == '-'

/-- Cashu units are open strings. -/
def isCashuUnit (value : String) : Bool :=
  !value.toList.isEmpty && value.utf8ByteSize ≤ 64 &&
    value.toList.all fun c => isLowercase c || c.isDigit || c == '-' || c == '_'

def isPostgresIdentifier (value : String) : Bool :=
  value.toList.head?.any isLowercase && value.toList.all fun c => isLowercase c || c.isDigit || c == '_'

/-- `value.replace('-', "_")`. -/
def dashesFolded (value : String) : String := .ofList (value.toList.map fun c => if c = '-' then '_' else c)

end Proofstorm.Validation
