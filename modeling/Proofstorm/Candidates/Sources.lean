import Mathlib.Data.List.DropRight
import Mathlib.Data.List.Infix
import Proofstorm.Ordered
import Proofstorm.Lifecycle.Workload
import Proofstorm.Publication.Contract
import Proofstorm.Upload.Files

/-!
The sources that a candidate is built from: a pull request, a commit of the
component's repository or of a fork, a tag, or a bundle of private commits. A
request is normalized before it is compared with the request that was recorded;
a bundle is read here as far as its header, which names its heads and the public
commits that it stands on.
-/
namespace Proofstorm.Candidates
open Proofstorm.Publication (splitOnce)
open Proofstorm.Validation (isAlphanumeric)
open Proofstorm.Lifecycle (parseU64 printU64)
open Proofstorm.Upload (Bytes Hash byteLength isHexDigit)

inductive CandidateInput
  | pullRequest (url : String)
  /-- `repository` names a public fork. -/
  | commit (sha url repository : Option String)
  | tag (tag : String)
  /-- `sha256` and `prerequisites` are derived from the file, never requested. -/
  | bundle (path : Option String) (commit : String) (sha256 : Option String) (prerequisites : List String)
  deriving DecidableEq

def candidateBundleMaxBytes : Nat := 700 * 1024
def candidateBundleMaxPrerequisites : Nat := 64

/-! ### Slices of a text -/

/-- `str::to_ascii_lowercase`. -/
def asciiLowercase (text : String) : String := .ofList (text.toList.map Char.toLower)

/-- `text.rsplit_once(separator)`, for a separator that is not empty. -/
def rsplitOnce (separator : List Char) : List Char → Option (List Char × List Char)
  | [] => none
  | c :: rest =>
    match rsplitOnce separator rest with
    | some (before,after) => some (c :: before,after)
    | none => if separator.isPrefixOf (c :: rest) then some ([],(c :: rest).drop separator.length) else none

/-- A line ends with a line feed, and a carriage return before it goes with it. -/
def withoutReturn (line : List Char) : List Char :=
  if line.getLast? = some '\r' then line.dropLast else line

/-- `str::lines`. What follows the last line feed is a line only if there is some of it. -/
def lines (text : List Char) : List (List Char) :=
  let pieces := text.splitOn '\n'
  let last := pieces.getLast?.getD []
  pieces.dropLast.map withoutReturn ++ if last = [] then [] else [last]

/-- `char::is_control`. -/
def isControl (c : Char) : Bool := c.toNat < 0x20 || (0x7f ≤ c.toNat && c.toNat ≤ 0x9f)

/-- `char::is_whitespace`. -/
def isWhitespace (c : Char) : Bool :=
  (9 ≤ c.toNat && c.toNat ≤ 13) || (0x2000 ≤ c.toNat && c.toNat ≤ 0x200a) ||
    [0x20,0x85,0xa0,0x1680,0x2028,0x2029,0x202f,0x205f,0x3000].contains c.toNat

/-! ### Commits and repositories -/

def fullSha (value : String) : Option String :=
  if byteLength value = 40 ∧ value.toList.all isHexDigit then some (asciiLowercase value) else none

/-- One part of `owner/repository`. -/
def isRepositoryPart (max : Nat) (part : List Char) : Bool :=
  let bytes := byteLength (.ofList part)
  1 ≤ bytes && bytes ≤ max && part != ".".toList && part != "..".toList &&
    part.all fun c => isAlphanumeric c || "._-".toList.contains c

/-- `is_github_repository`. -/
def isGithubRepository (name : String) : Bool :=
  (splitOnce ['/'] name.toList).any fun (owner,repository) =>
    isRepositoryPart 39 owner && isRepositoryPart 100 repository

def githubUrl (path : String) : String := "https://github.com/" ++ path

/-- The number of a pull request, read from its URL. -/
def pullNumber (start url : String) : Option UInt64 :=
  let path := url.toList.rdropWhile (· == '/')
  ((start.toList.isPrefixOf? path).bind fun number => parseU64 (.ofList number)).filter (0 < ·)

/-- The repository and the commit that a URL names. -/
def commitOfUrl (url : String) : Option (String × String) :=
  (("https://github.com/".toList.isPrefixOf? url.toList).bind (rsplitOnce "/commit/".toList)).map
    fun (source,sha) => (.ofList source,.ofList sha)

/-- The commit asked for as it was written, with the repository named for it. -/
def requestedCommit : Option String → Option String → Option String →
    Except String (String × Option String)
  | some sha,none,source => .ok (sha,source)
  | none,some url,none => do
    let (source,sha) ← require (commitOfUrl url)
      "candidate_commit_url_invalid: expected https://github.com/<owner>/<repository>/commit/<sha>"
    pure (sha,some source)
  | _,_,_ => .error
    "candidate_source_invalid: commit requires exactly one of sha or url, and repository only with sha"

/-- A fork that names the canonical repository is the canonical form. -/
def forkOf (repository : String) : Option String → Except String (Option String)
  | none => .ok none
  | some source => do
    ensure (isGithubRepository source = true)
      "candidate_repository_invalid: expected a GitHub owner/repository"
    pure (if asciiLowercase source = asciiLowercase repository then none else some (asciiLowercase source))

def isTag (tag : String) : Bool :=
  !(tag == "" || byteLength tag > 256 || "-".toList.isPrefixOf tag.toList ||
    decide ("..".toList <:+: tag.toList) || tag.toList.any fun c => isControl c || isWhitespace c)

def shaError : String := "candidate_sha_invalid: full 40-character commit SHA required"

/-- What a bundle is admitted with: a set of full commits, in its order. -/
def prerequisiteSet (prerequisites : List String) : Option (Std.ExtTreeSet String) :=
  ((prerequisites.mapM fullSha).map fun shas => .ofList shas).filter
    fun set => set.size ≤ candidateBundleMaxPrerequisites

def CandidateInput.normalized (input : CandidateInput) (repository : String) : Except String CandidateInput :=
  let start := githubUrl (repository ++ "/pull/")
  match input with
  | .pullRequest url => do
    let number ← require (pullNumber start url)
      "candidate_pr_url_invalid: expected a PR in the component's canonical repository"
    pure (.pullRequest (start ++ printU64 number))
  | .commit sha url source => do
    let (value,source) ← requestedCommit sha url source
    let sha ← require (fullSha value) shaError
    let fork ← forkOf repository source
    pure (.commit (some sha) none fork)
  | .tag name => do
    ensure (isTag name = true) "candidate_tag_invalid"
    pure (.tag name)
  | .bundle none head (some sha256) prerequisites => do
    let head ← require (fullSha head) shaError
    ensure (byteLength sha256 = 64 ∧ sha256.toList.all isHexDigit)
      "candidate_bundle_invalid: sha256 must be 64 hex digits"
    let set ← require (prerequisiteSet prerequisites)
      "candidate_bundle_invalid: prerequisites must be full commit SHAs"
    pure (.bundle none head (some (asciiLowercase sha256)) set.toList)
  | .bundle _ _ _ _ => .error
    "candidate_bundle_unread: supply only path and commit; the MCP server reads the bundle"

/-! ### The header of a bundle -/

/-- Where the first of the first `limit` pairs of bytes stands that is a blank line. -/
def blankAt : Nat → Bytes → Option Nat
  | limit + 1,a :: b :: rest =>
    if a = 10 ∧ b = 10 then some 0 else (blankAt limit (b :: rest)).map (· + 1)
  | _,_ => none

structure BundleHeader where
  prerequisites : Std.ExtTreeSet String
  heads : Std.ExtTreeSet String

/-- The commit of a line for a prerequisite, behind its dash. -/
def prerequisiteOf (rest : List Char) : Option String := fullSha (.ofList (rest.takeWhile (· != ' ')))

/-- The commit of a line for a head that has a name. -/
def headOf (line : List Char) : Option String :=
  ((splitOnce [' '] line).filter fun (_,name) => name ≠ []).bind fun (sha,_) => fullSha (.ofList sha)

def invalidBundle (detail : String) : String := "candidate_bundle_invalid: " ++ detail

/-- One line behind the version of the bundle. -/
def BundleHeader.read (version : Nat) (header : BundleHeader) : List Char → Except String BundleHeader
  | '@' :: capability => do
    ensure (version = 3 ∧ capability = "object-format=sha1".toList)
      (invalidBundle "only complete SHA-1 bundles are supported")
    pure header
  | '-' :: rest => do
    let sha ← require (prerequisiteOf rest) (invalidBundle "malformed prerequisite")
    pure { header with prerequisites := header.prerequisites.insert sha }
  | line => do
    let sha ← require (headOf line) (invalidBundle "malformed head")
    pure { header with heads := header.heads.insert sha }

def bundleVersion (line : Option (List Char)) : Option Nat :=
  if line = some "# v2 git bundle".toList then some 2
  else if line = some "# v3 git bundle".toList then some 3
  else none

def readHeader (text : String) : Except String BundleHeader := do
  let all := lines text.toList
  let version ← require (bundleVersion all.head?) (invalidBundle "expected a v2 or v3 git bundle")
  all.tail.foldlM (BundleHeader.read version) ⟨∅,∅⟩

def tooLarge : String :=
  "candidate_bundle_too_large: bundles are limited to " ++ toString (candidateBundleMaxBytes / 1024) ++
    " KiB; bundle only the private commits with git bundle create <file> <public-base>..HEAD"

/-- The text before the blank line that ends the header, with pack data behind it. -/
def headerText (bytes : Bytes) : Except String String := do
  ensure (bytes.length ≤ candidateBundleMaxBytes) tooLarge
  let stop ← require (blankAt (64 * 1024) bytes) (invalidBundle "expected a git bundle header")
  ensure ("PACK".toUTF8.data.toList <+: bytes.drop (stop + 2)) (invalidBundle "expected pack data after the header")
  require (String.fromUTF8? (bytes.take stop).toByteArray) (invalidBundle "header is not UTF-8")

/-- A bundle is known by its bytes. Git checks the pack during the build. -/
def CandidateInput.fromBundle [Hash] (bytes : Bytes) (commit : String) : Except String CandidateInput := do
  let text ← headerText bytes
  let header ← readHeader text
  let head ← require (fullSha commit) shaError
  ensure (head ∈ header.heads) (invalidBundle "commit is not a head of this bundle")
  (CandidateInput.bundle none head (some (Hash.sha256 bytes)) header.prerequisites.toList).normalized ""

end Proofstorm.Candidates
